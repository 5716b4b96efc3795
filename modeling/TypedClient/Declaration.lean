import TypedClient.Analysis

/-!
# Declarations

What the generated files declare, before it is written as text.

* `Declaration`: the declarations; `Callable` is the method for one operation.
* `Artifact`: the declarations of one file.
-/

namespace TypedClient

/-- A member of an enumeration. -/
structure EnumMember where
  name : String
  value : Value
deriving Repr, BEq, Inhabited

/-- The method of a client for one operation. -/
structure Callable where
  name : String
  operationId : String
  method : Method
  path : String
  pathParameters : List String
  headerParameters : List String
  queryParameters : List String
  parametersType : Option TypeExpr
  dataType : Option TypeExpr
  sendsData : Bool
  returnType : TypeExpr
  responseKind : ResponseKind
  summary : Option String
  isDeprecated : Bool
deriving Repr, BEq, Inhabited

/-- How the operation of a method is named in messages. -/
def Callable.label (c : Callable) : String :=
  operationLabel c.method c.path

/-- A declaration of a generated file. -/
inductive Declaration where
  /-- The projections that give the two views of a type. -/
  | viewUtilities
  | enumeration (name : String) (members : List EnumMember) (source : String)
  | alias (name : String) (type : TypeExpr) (source : String)
  /-- The import of names, or of a whole file as a namespace. -/
  | importTypes (file : String) (names : List String) (space : Option String)
  | exportTypes (names : List String) (file : Option String)
  | callable (c : Callable)
  /-- An accessor that exposes methods under names of its own. -/
  | tagGroup (name : String) (members : Named String)
  /-- The function that picks some of the parameters. -/
  | pickHelper
deriving Repr, BEq, Inhabited

/-- The declarations of one file. -/
structure Artifact where
  name : String
  filename : String
  declarations : List Declaration
deriving Repr, BEq, Inhabited

end TypedClient

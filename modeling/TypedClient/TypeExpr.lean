import TypedClient.Named
import TypedClient.NameSet
import TypedClient.Value

/-!
# Type expressions

The types that the generated declarations are made of.

* `TypeExpr`: the expressions; a named type may carry the view it is seen through.
* `FieldOf`: what an object type says of one property.
* `TypeExpr.viewNames`: the views that occur in an expression, by the names of their projections.
-/

namespace TypedClient

/-- The two sides from which a type with properties of one direction may be seen. -/
inductive View where
  | input
  | output
deriving Repr, DecidableEq, Inhabited

/-- The word for a view. -/
def View.name : View → String
  | .input => "input"
  | .output => "output"

/-- The name of the projection that gives a view of a type. -/
def View.projection : View → String
  | .input => "InputView"
  | .output => "OutputView"

/-- The types without parts. -/
inductive PrimitiveType where
  | string
  | number
  | integer
  | boolean
  | any
  | unknown
  | void
deriving Repr, DecidableEq, Inhabited

/-- The word for a primitive type. -/
def PrimitiveType.name : PrimitiveType → String
  | .string => "string"
  | .number => "number"
  | .integer => "integer"
  | .boolean => "boolean"
  | .any => "any"
  | .unknown => "unknown"
  | .void => "void"

/-- What an object type says of one property.  A marked property is tagged for the projections. -/
structure FieldOf (T : Type) where
  type : T
  isOptional : Bool
  isReadOnly : Bool
  isWriteOnly : Bool
  isMarked : Bool
deriving Repr, BEq, Inhabited

/-- A type expression.  The qualifier of a named type is the text in front of its name; a builtin
name belongs to the target language and takes no qualifier. -/
inductive TypeExpr where
  | named (name qualifier : String) (view : Option View) (isBuiltin : Bool)
  | array (items : TypeExpr)
  | object (fields : List (String × FieldOf TypeExpr)) (index : Option TypeExpr)
  | sum (members : List TypeExpr)
  | product (members : List TypeExpr)
  | literals (values : List Value)
  | primitive (type : PrimitiveType)
  | nullable (inner : TypeExpr)
deriving Repr, BEq, Inhabited

namespace TypeExpr

/-- The type of everything. -/
def any : TypeExpr := .primitive .any

/-- The builtin type of days and moments. -/
def dateTime : TypeExpr := .named "DateTime" "" none true

/-- The type with null added if a flag is set. -/
def orNull (flag : Bool) (type : TypeExpr) : TypeExpr :=
  if flag then .nullable type else type

mutual

/-- The names of the projections that occur in the expression. -/
def viewNames : TypeExpr → NameSet
  | .named _ _ (some view) _ => [view.projection]
  | .named _ _ none _ => []
  | .array items => items.viewNames
  | .object fields index => NameSet.union (viewNamesOfIndex index) (viewNamesOfFields fields)
  | .sum members => viewNamesOfMembers members
  | .product members => viewNamesOfMembers members
  | .literals _ => []
  | .primitive _ => []
  | .nullable inner => inner.viewNames

/-- The names of the projections in the properties of an object type. -/
def viewNamesOfFields : List (String × FieldOf TypeExpr) → NameSet
  | [] => []
  | (_, ⟨type, _, _, _, _⟩) :: rest => NameSet.union type.viewNames (viewNamesOfFields rest)

/-- The names of the projections in an index signature. -/
def viewNamesOfIndex : Option TypeExpr → NameSet
  | none => []
  | some type => type.viewNames

/-- The names of the projections in a list of types. -/
def viewNamesOfMembers : List TypeExpr → NameSet
  | [] => []
  | type :: rest => NameSet.union type.viewNames (viewNamesOfMembers rest)

end

end TypeExpr

end TypedClient

import TypedClient.Schema
import TypedClient.Problem

/-!
# Documents

An API document as the generator sees it: the named schemas and the operations, in the order in
which the document gives them, with notes on what had to be left out.

* `Document`, `Operation` and their parts.
* `Operation.label`: how an operation is named in messages.
-/

namespace TypedClient

/-- The methods that an operation can have. -/
inductive Method where
  | get
  | post
  | put
  | patch
  | delete
  | head
  | options
  | trace
deriving Repr, DecidableEq, Inhabited

namespace Method

/-- All methods, in the order in which a path is read. -/
def all : List Method := [.get, .post, .put, .patch, .delete, .head, .options, .trace]

/-- The keyword of a method. -/
def name : Method → String
  | .get => "get"
  | .post => "post"
  | .put => "put"
  | .patch => "patch"
  | .delete => "delete"
  | .head => "head"
  | .options => "options"
  | .trace => "trace"

/-- The method as it is shown, in capitals. -/
def label : Method → String
  | .get => "GET"
  | .post => "POST"
  | .put => "PUT"
  | .patch => "PATCH"
  | .delete => "DELETE"
  | .head => "HEAD"
  | .options => "OPTIONS"
  | .trace => "TRACE"

/-- Do requests with the method carry data? -/
def sendsData : Method → Bool
  | .post => true
  | .put => true
  | .patch => true
  | _ => false

theorem mem_all (m : Method) : m ∈ all := by
  cases m <;> decide

end Method

/-- Where a parameter stands in a request. -/
inductive Place where
  | query
  | header
  | path
  | cookie
deriving Repr, DecidableEq, Inhabited

namespace Place

/-- The keyword of a place. -/
def name : Place → String
  | .query => "query"
  | .header => "header"
  | .path => "path"
  | .cookie => "cookie"

/-- The place with a keyword. -/
def ofName? (s : String) : Option Place :=
  if s = "query" then some .query
  else if s = "header" then some .header
  else if s = "path" then some .path
  else if s = "cookie" then some .cookie
  else none

end Place

/-- A parameter of an operation. -/
structure Parameter where
  name : String
  place : Place
  isRequired : Bool
  description : Option String
  isDeprecated : Bool
  schema : Option Schema
deriving Repr, BEq, Inhabited

/-- One media type of a content, with the schema of its values. -/
structure Media where
  mediaType : String
  schema : Option Schema
deriving Repr, BEq, Inhabited

/-- The body of a request. -/
structure RequestBody where
  isRequired : Bool
  description : Option String
  content : List Media
deriving Repr, BEq, Inhabited

/-- A response that an operation declares for a status. -/
structure Response where
  status : String
  description : Option String
  content : List Media
deriving Repr, BEq, Inhabited

/-- An operation: one method of one path. -/
structure Operation where
  path : String
  method : Method
  operationId : Option String
  summary : Option String
  description : Option String
  tags : List String
  parameters : List Parameter
  requestBody : Option RequestBody
  responses : List Response
  isDeprecated : Bool
deriving Repr, BEq, Inhabited

/-- How an operation is named in messages. -/
def operationLabel (method : Method) (path : String) : String :=
  method.label ++ " " ++ path

/-- How the operation is named in messages. -/
def Operation.label (op : Operation) : String :=
  operationLabel op.method op.path

/-- What a document says of the API as a whole. -/
structure ApiInfo where
  title : String := "Untitled API"
  version : String := "0.0.0"
  description : Option String := none
deriving Repr, DecidableEq, Inhabited

/-- A document. -/
structure Document where
  openapiVersion : String
  info : ApiInfo
  schemas : Named Schema
  operations : List Operation
  notes : List Diagnostic
deriving Repr, BEq, Inhabited

namespace Document

/-- Does any schema of the content have properties of one direction? -/
def contentHasModifier (content : List Media) : Bool :=
  content.any fun media => match media.schema with
    | some s => s.hasModifier
    | none => false

/-- Does any named schema, request body or response have properties that are read-only or
write-only?  References are not followed, since every named schema is looked at anyway. -/
def usesModifiers (doc : Document) : Bool :=
  doc.schemas.any (fun entry => entry.2.hasModifier) ||
    doc.operations.any fun op =>
      (match op.requestBody with
        | some body => contentHasModifier body.content
        | none => false) ||
      op.responses.any fun response => contentHasModifier response.content

end Document

end TypedClient

import TypedClient.Document
import TypedClient.Document.Reference
import TypedClient.Schema.Reading

/-!
# Reading documents

A decoded document is read once, from its head to its operations.  A component that cannot be
reached is left out and noted; a value that does not fit its place ends the reading.

* `Noting`: readings that collect notes.
* `Document.ofValue`: the document that a value describes.
* `Document.mergeParameters`: the parameters of an operation, over those of its path.
-/

namespace TypedClient

/-- A reading that either meets a misfit or gives a result with the notes it made, in order. -/
def Noting (α : Type) : Type := Except Misfit (α × List Diagnostic)

namespace Noting

/-- A result without notes. -/
protected def pure {α : Type} (a : α) : Noting α := .ok (a, [])

/-- One reading after another; the notes of the first come first. -/
protected def bind {α β : Type} (m : Noting α) (f : α → Noting β) : Noting β :=
  match m with
  | .error misfit => .error misfit
  | .ok (a, notes) =>
    match f a with
    | .error misfit => .error misfit
    | .ok (b, more) => .ok (b, notes ++ more)

instance : Monad Noting where
  pure := Noting.pure
  bind := Noting.bind

/-- A reading that makes no notes. -/
def quiet {α : Type} (m : Except Misfit α) : Noting α :=
  match m with
  | .error misfit => .error misfit
  | .ok a => .ok (a, [])

/-- A note on its own. -/
def note (d : Diagnostic) : Noting Unit := .ok ((), [d])

/-- The same reading for each element of a list, in order. -/
def each {α β : Type} (f : α → Noting β) : List α → Noting (List β)
  | [] => Noting.pure []
  | a :: rest => do
    let b ← f a
    let bs ← each f rest
    return b :: bs

end Noting

namespace Document

open Noting

/-! ## Texts -/

/-- An optional text: null, a text, or bytes that encode one. -/
def optionalText : Value → Except Misfit (Option String)
  | .null => .ok none
  | .text s => .ok (some s)
  | .bytes data =>
    match String.fromUTF8? ⟨data.toArray⟩ with
    | some s => .ok (some s)
    | none => .error .notText
  | _ => .error .notText

/-- The head of a document: a title and a version are shown whatever they are. -/
def readInfo (root : Value) : Except Misfit ApiInfo :=
  match root.getD "info" with
  | .map entries => do
    if entries.isEmpty then return {}
    let shown (key fallback : String) : String :=
      match Value.lookup? key entries with
      | some v => v.display
      | none => fallback
    let description ← optionalText (Value.getD (.map entries) "description")
    return ⟨shown "title" "Untitled API", shown "version" "0.0.0", description⟩
  | _ => .ok {}

/-! ## Schemas -/

/-- The place of a named schema. -/
def schemaLocation (name : String) : String :=
  "#/components/schemas/" ++ name

/-- The named schemas behind those already found; an entry that is no object is noted and stands
for a schema without shape. -/
def readSchemas (found : Named Schema) : Entries → Noting (Named Schema)
  | [] => Noting.pure found
  | (key, v) :: rest =>
    let name := key.display
    match v with
    | .map _ => do
      let schema ← quiet (Schema.ofValue v)
      readSchemas (found.put name schema) rest
    | _ => do
      note (Reference.note "invalid-component" ("Schema '" ++ name ++ "' is not an object")
        (schemaLocation name))
      readSchemas (found.put name (.untyped "not an object" false)) rest

/-- The named schemas of a document. -/
def readLibrary (root : Value) : Noting (Named Schema) :=
  match (root.getD "components").getD "schemas" with
  | .map entries => readSchemas [] entries
  | _ => Noting.pure []

/-! ## Components -/

/-- What a value leads to, if that is an object. -/
def dereference (root : Value) (location : String) (v : Value) : Noting (Option Value) :=
  match Reference.follow root location v with
  | .object entries => Noting.pure (some (.map entries))
  | .nothing => Noting.pure none
  | .dropped d => do
    note d
    return none

/-- What the elements of a list lead to; anything but a list has no elements. -/
def dereferenceAll (root : Value) (location : String) : Value → Noting (List Value)
  | .list items => do
    let found ← each (dereference root location) items
    return found.filterMap id
  | _ => Noting.pure []

/-- The schema under the keyword `schema`, if the value is an object that has it. -/
def readOwnSchema (v : Value) : Except Misfit (Option Schema) :=
  match v.get? "schema" with
  | some schema => do return some (← Schema.ofValue schema)
  | none => .ok none

/-- The media types of a content, in order. -/
def readContent : Value → Except Misfit (List Media)
  | .map entries => entries.mapM fun (key, v) => do
    return ⟨key.display, ← readOwnSchema v⟩
  | _ => .ok []

/-! ## Parameters -/

/-- What tells parameters apart: name and place, an empty text where one is missing. -/
def parameterKey (v : Value) : Value × Value :=
  ((v.get? "name").getD (.text ""), (v.get? "in").getD (.text ""))

/-- A parameter's name and place, which have to be keys. -/
def parameterKey? (v : Value) : Except Misfit (Value × Value) := do
  let key := parameterKey v
  Value.requireKey key.1
  Value.requireKey key.2
  return key

/-- Do two parameters have the same name and place? -/
def sameParameter (a b : Value × Value) : Bool :=
  a.1.sameKey b.1 && a.2.sameKey b.2

/-- The parameters of an operation: those of its path which it does not give itself, then its
own. -/
def mergeParameters (ofPath ofOperation : List Value) : Except Misfit (List Value) := do
  let own ← ofOperation.mapM parameterKey?
  let keyed ← ofPath.mapM fun v => do return (v, ← parameterKey? v)
  let kept := keyed.filter fun p => !own.any (sameParameter p.2)
  return kept.map Prod.fst ++ ofOperation

/-- The place that a parameter names, if it is a known one. -/
def placeOf? (v : Value) : Option Place :=
  match v.get? "in" with
  | some (.text s) => Place.ofName? s
  | _ => none

/-- The parameter that an object describes; one without a name or a known place is left out.  Path
parameters are always required. -/
def readParameter (v : Value) : Except Misfit (Option Parameter) :=
  let name := v.getD "name"
  match placeOf? v with
  | none => .ok none
  | some place =>
    if !name.isTruthy then .ok none
    else do
      let schema ← readOwnSchema v
      let description ← optionalText (v.getD "description")
      return some
        { name := name.display
          place := place
          isRequired := place == .path || (v.getD "required").isTrue
          description := description
          isDeprecated := (v.getD "deprecated").isTrue
          schema := schema }

/-- The parameters that a list of objects describes. -/
def readParameters (items : List Value) : Except Misfit (List Parameter) := do
  return (← items.mapM readParameter).filterMap id

/-! ## Operations -/

/-- The elements of a value that lists tags: a list's elements, a map's keys, a text's characters.
A value that does not count as given lists none. -/
def tagValues (v : Value) : Except Misfit (List Value) :=
  if !v.isTruthy then .ok []
  else
    match v with
    | .list items => .ok items
    | .set items => .ok items
    | .pair a b => .ok [a, b]
    | .map entries => .ok (entries.map Prod.fst)
    | .text s => .ok (s.toList.map fun c => .text (String.singleton c))
    | .bytes data => .ok (data.map fun b => .int b.toNat)
    | _ => .error .notIterable

/-- The request body of an operation. -/
def readRequestBody (root : Value) (label : String) (v : Value) : Noting (Option RequestBody) := do
  match ← dereference root label v with
  | none => return none
  | some body =>
    let content ← quiet (readContent (body.getD "content"))
    let description ← quiet (optionalText (body.getD "description"))
    return some ⟨(body.getD "required").isTrue, description, content⟩

/-- The response that an entry describes, if it leads to an object. -/
def readResponse (root : Value) (label : String) (entry : Value × Value) :
    Noting (Option Response) := do
  match ← dereference root label entry.2 with
  | none => return none
  | some response =>
    let content ← quiet (readContent (response.getD "content"))
    let description ← quiet (optionalText (response.getD "description"))
    return some ⟨entry.1.display, description, content⟩

/-- The responses of an operation, in order. -/
def readResponses (root : Value) (label : String) : Value → Noting (List Response)
  | .map entries => do
    let found ← each (readResponse root label) entries
    return found.filterMap id
  | _ => Noting.pure []

/-- The operation that an object describes, given the parameters of its path. -/
def readOperation (root : Value) (path : String) (pathParameters : List Value) (method : Method)
    (v : Value) : Noting Operation := do
  let label := operationLabel method path
  let own ← dereferenceAll root label (v.getD "parameters")
  let merged ← quiet (mergeParameters pathParameters own)
  let tags ← quiet (tagValues (v.getD "tags"))
  let parameters ← quiet (readParameters merged)
  let requestBody ← readRequestBody root label (v.getD "requestBody")
  let responses ← readResponses root label (v.getD "responses")
  let operationId ← quiet (optionalText (v.getD "operationId"))
  let summary ← quiet (optionalText (v.getD "summary"))
  let description ← quiet (optionalText (v.getD "description"))
  return {
    path := path
    method := method
    operationId := operationId
    summary := summary
    description := description
    tags := tags.map Value.display
    parameters := parameters
    requestBody := requestBody
    responses := responses
    isDeprecated := (v.getD "deprecated").isTrue }

/-- The operation that a path item gives for a method, if it gives one. -/
def readMethod (root : Value) (path : String) (pathParameters : List Value) (item : Value)
    (method : Method) : Noting (Option Operation) :=
  match item.get? method.name with
  | some (.map entries) => do
    let operation ← readOperation root path pathParameters method (.map entries)
    return some operation
  | _ => Noting.pure none

/-- The operations of a path, in the order of the methods. -/
def readPath (root : Value) (entry : Value × Value) : Noting (List Operation) := do
  let path := entry.1.display
  match ← dereference root ("#/paths/" ++ path) entry.2 with
  | none => return []
  | some item =>
    let pathParameters ←
      dereferenceAll root ("#/paths/" ++ path ++ "/parameters") (item.getD "parameters")
    let found ← each (readMethod root path pathParameters item) Method.all
    return found.filterMap id

/-- The operations of a document, in order. -/
def readOperations (root : Value) : Noting (List Operation) :=
  match root.getD "paths" with
  | .map entries => do
    let found ← each (readPath root) entries
    return found.flatten
  | _ => Noting.pure []

/-- The document that a value describes, under a version that has been checked. -/
def ofValue (root : Value) (version : String) : Except Misfit Document := do
  let info ← readInfo root
  let (schemas, schemaNotes) ← readLibrary root
  let (operations, operationNotes) ← readOperations root
  return ⟨version, info, schemas, operations, schemaNotes ++ operationNotes⟩

end Document

end TypedClient

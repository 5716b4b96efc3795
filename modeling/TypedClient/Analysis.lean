import TypedClient.Document
import TypedClient.Mapping

/-!
# Analysis of operations

What a client needs to know of each operation, once for every tag that it carries.  The first
declared response is the one a call gives, whatever its status.

* `Analysis.analyze`: an operation as seen under a tag.
* `Analysis.ofDocument`: all operations of a document under all their tags, in order.
* `Analysis.responseOf`: how the content of a response is used.
-/

namespace TypedClient

/-- How a client uses a response. -/
inductive ResponseKind where
  | json
  | text
  | binary
  | void
deriving Repr, DecidableEq, Inhabited

/-- The word for a use of a response. -/
def ResponseKind.name : ResponseKind → String
  | .json => "json"
  | .text => "text"
  | .binary => "opaque"
  | .void => "void"

/-- An operation as seen under one of its tags. -/
structure AnalyzedOperation where
  method : Method
  path : String
  operationId : String
  hasOwnId : Bool
  methodName : String
  tag : String
  rawTag : String
  /-- The parameters that a call passes: all but cookies. -/
  parameters : List Parameter
  requestBody : Option Schema
  status : String
  mediaType : Option String
  responseSchema : Option Schema
  responseKind : ResponseKind
  references : NameSet
  summary : Option String
  description : Option String
  isDeprecated : Bool
deriving Repr, BEq, Inhabited

namespace AnalyzedOperation

/-- How the operation is named in messages. -/
def label (op : AnalyzedOperation) : String :=
  operationLabel op.method op.path

/-- The parameters of one place. -/
def parametersIn (op : AnalyzedOperation) (place : Place) : List Parameter :=
  op.parameters.filter fun p => p.place == place

end AnalyzedOperation

namespace Analysis

/-- The tag of operations that carry none. -/
def defaultTag : String := "default"

/-- The identifier of an operation that has none of its own: the last segment of its path and its
method. -/
def synthesizedId (path : String) (method : Method) : String :=
  String.ofList ((Text.segments '/' path.toList).getLastD []) ++ "_" ++ method.name

/-- Is the media type a kind of JSON? -/
def isJson (media : Media) : Bool :=
  Text.holds "json".toList (Text.lower media.mediaType.toList)

/-- The JSON content: the plain JSON media type, or else the first that is a kind of it. -/
def jsonMedia? (content : List Media) : Option Media :=
  match content.find? fun media => media.mediaType == "application/json" with
  | some media => some media
  | none => content.find? isJson

/-- How the content of a response is used, its media type, and for JSON the schema. -/
def responseOf (content : List Media) : ResponseKind × Option String × Option Schema :=
  match content with
  | [] => (.void, none, none)
  | first :: _ =>
    match jsonMedia? content with
    | some media => (.json, some media.mediaType, media.schema)
    | none =>
      if "text/".toList.isPrefixOf (Text.lower first.mediaType.toList) then
        (.text, some first.mediaType, none)
      else (.binary, some first.mediaType, none)

/-- The diagnostic on a reference that leads nowhere; without a place of its own it gets the place
where it was met. -/
def resolutionDiagnostic (error : ResolutionError) (location : String) : Diagnostic :=
  let place := match error.location with
    | some own => if own.isEmpty then location else own
    | none => location
  ⟨.error, error.code, error.message, place⟩

/-- Where a parameter of an operation is met. -/
def parameterLocation (label name : String) : String :=
  label ++ " parameter '" ++ name ++ "'"

/-- Where the request body of an operation is met. -/
def bodyLocation (label : String) : String := label ++ " request body"

/-- Where the response of an operation is met. -/
def responseLocation (label : String) : String := label ++ " response"

/-- A schema that an operation uses, with the view it is seen through and where it is met. -/
structure Use where
  schema : Schema
  view : Option View
  location : String
deriving Repr, BEq

/-- The schemas that an operation uses: parameters, request body and response, in this order. -/
def uses (label : String) (parameters : List Parameter) (body response : Option Schema) :
    List Use :=
  (parameters.filterMap fun p => p.schema.map fun s => ⟨s, none, parameterLocation label p.name⟩) ++
    (body.map fun s => Use.mk s (some .input) (bodyLocation label)).toList ++
    (response.map fun s => Use.mk s (some .output) (responseLocation label)).toList

/-- The type names that one use refers to, and its notes; a reference that leads nowhere is noted
and refers to nothing. -/
def referencesOf (lib : Library) (use : Use) : NameSet × List Diagnostic :=
  match Mapping.map lib { view := use.view } use.location use.schema with
  | .ok mapped => (mapped.references, mapped.notes)
  | .error error => ([], [resolutionDiagnostic error use.location])

/-- The type names that a list of uses refers to, and the notes in order. -/
def harvest (lib : Library) : List Use → NameSet × List Diagnostic
  | [] => ([], [])
  | use :: rest =>
    let (references, notes) := referencesOf lib use
    let (others, more) := harvest lib rest
    (NameSet.union references others, notes ++ more)

/-- An operation as seen under a tag, given the response that a call gives, with the notes on the
types it refers to. -/
def analyze (lib : Library) (op : Operation) (response : Response) (rawTag : String) :
    AnalyzedOperation × List Diagnostic :=
  let ownId := op.operationId.getD ""
  let operationId := if ownId.isEmpty then synthesizedId op.path op.method else ownId
  let parameters := op.parameters.filter fun p => p.place != .cookie
  let body := if op.method.sendsData then
      op.requestBody.bind fun body => (jsonMedia? body.content).bind Media.schema
    else none
  let (kind, mediaType, schema) := responseOf response.content
  let (references, notes) := harvest lib (uses op.label parameters body schema)
  ({ method := op.method
     path := op.path
     operationId := operationId
     hasOwnId := !ownId.isEmpty
     methodName := Naming.methodName operationId
     tag := Naming.tagName rawTag
     rawTag := rawTag
     parameters := parameters
     requestBody := body
     status := response.status
     mediaType := mediaType
     responseSchema := schema
     responseKind := kind
     references := references
     summary := op.summary
     description := op.description
     isDeprecated := op.isDeprecated }, notes)

/-- The message on an operation that declares no responses. -/
def malformedMessage (label : String) : String :=
  "Operation " ++ label ++ " declares no responses"

/-- The diagnostic on an operation that declares no responses. -/
def malformed (label : String) : Diagnostic :=
  ⟨.error, "malformed-operation", malformedMessage label, label⟩

/-- The tags under which an operation is seen. -/
def tagsOf (op : Operation) : List String :=
  if op.tags.isEmpty then [defaultTag] else op.tags

/-- An operation under all its tags, with the notes in order; one without responses is left out. -/
def ofOperation (lib : Library) (op : Operation) : List AnalyzedOperation × List Diagnostic :=
  match op.responses with
  | [] => ([], [malformed op.label])
  | response :: _ =>
    let seen := (tagsOf op).map (analyze lib op response)
    (seen.map Prod.fst, seen.flatMap Prod.snd)

/-- All operations of a document under all their tags, with the notes in order. -/
def ofDocument (lib : Library) (doc : Document) : List AnalyzedOperation × List Diagnostic :=
  let seen := doc.operations.map (ofOperation lib)
  (seen.flatMap Prod.fst, seen.flatMap Prod.snd)

end Analysis

end TypedClient

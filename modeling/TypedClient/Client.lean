import TypedClient.Declaration
import TypedClient.PathTemplate
import TypedClient.Settings

/-!
# The client

The methods of a client, one for each operation, and the accessors that expose them under their
tags.  The operations are taken in order; two different operations that want one name end the
assembly.

* `Client.callable`: the method of an operation.
* `Client.exposedName`: the name under which an accessor exposes a method.
* `Client.Draft`: the client so far; `Client.Draft.add` takes one more operation.
* `Client.declarations`: the declarations of the client, or the first clash of names.
-/

namespace TypedClient.Client

/-- Two operations that want one name, inside a tag if the name is an exposed one. -/
structure NameClash where
  name : String
  first : String
  second : String
  tag : Option String
deriving Repr, DecidableEq, Inhabited

/-- The wording of a clash. -/
def NameClash.message (clash : NameClash) : String :=
  let scope := match clash.tag with
    | some tag => if tag.isEmpty then "" else " in tag '" ++ tag ++ "'"
    | none => ""
  "Method name '" ++ clash.name ++ "'" ++ scope ++ " is produced by both " ++ clash.first ++
    " and " ++ clash.second

/-! ## Methods -/

/-- The type of a schema that an operation uses; a reference that leads nowhere gives `any` and a
diagnostic, and a missing schema is unknown. -/
def typeOf (lib : Library) (ctx : Mapping.Context) (location : String) :
    Option Schema → TypeExpr × List Diagnostic
  | none => (.primitive .unknown, [])
  | some schema =>
    match Mapping.map lib ctx location schema with
    | .ok mapped => (mapped.result, mapped.notes)
    | .error error => (.any, [Analysis.resolutionDiagnostic error location])

/-- The property for a parameter in the type of the parameters. -/
def parameterField (lib : Library) (ctx : Mapping.Context) (label : String) (p : Parameter) :
    FieldOf TypeExpr × List Diagnostic :=
  let (type, notes) := typeOf lib ctx (Analysis.parameterLocation label p.name) p.schema
  (⟨type, !p.isRequired, false, false, false⟩, notes)

/-- The type of the parameters: a property for each name.  Of two parameters with one name the
later one gives the property. -/
def parametersType (lib : Library) (qualifier : String) (op : AnalyzedOperation) :
    Option TypeExpr × List Diagnostic :=
  let fields := op.parameters.map fun p =>
    (p.name, parameterField lib { qualifier := qualifier } op.label p)
  if fields.isEmpty then (none, [])
  else
    (some (.object (Named.ofList (fields.map fun (name, field, _) => (name, field))) none),
      fields.flatMap fun (_, _, notes) => notes)

/-- The type of the data that a request carries. -/
def dataType (lib : Library) (qualifier : String) (modifiers : Bool) (op : AnalyzedOperation) :
    Option TypeExpr × List Diagnostic :=
  if op.method.sendsData && op.requestBody.isSome then
    let (type, notes) := typeOf lib
      { qualifier := qualifier, view := some .input, wrapViews := modifiers }
      (Analysis.bodyLocation op.label) op.requestBody
    (some type, notes)
  else (none, [])

/-- The type of the response that a call gives. -/
def returnType (lib : Library) (qualifier : String) (modifiers : Bool) (op : AnalyzedOperation) :
    TypeExpr × List Diagnostic :=
  match op.responseKind with
  | .json =>
    match op.responseSchema with
    | none => (.any, [])
    | some schema =>
      typeOf lib { qualifier := qualifier, view := some .output, wrapViews := modifiers }
        (Analysis.responseLocation op.label) (some schema)
  | .text => (.primitive .string, [])
  | .binary => (.primitive .unknown, [])
  | .void => (.primitive .void, [])

/-- The names of the parameters of one place. -/
def namesIn (op : AnalyzedOperation) (place : Place) : List String :=
  (op.parametersIn place).map Parameter.name

/-- The method of an operation with the diagnostics on its types. -/
def callable (lib : Library) (qualifier : String) (modifiers : Bool) (op : AnalyzedOperation) :
    Callable × List Diagnostic :=
  let (parametersType, parameterNotes) := parametersType lib qualifier op
  let (dataType, dataNotes) := dataType lib qualifier modifiers op
  let (returnType, returnNotes) := returnType lib qualifier modifiers op
  let declared := namesIn op .path
  ({ name := op.methodName
     operationId := op.operationId
     method := op.method
     path := op.path
     pathParameters := (PathTemplate.placeholders op.path).filter declared.contains
     headerParameters := namesIn op .header
     queryParameters := namesIn op .query
     parametersType := parametersType
     dataType := dataType
     sendsData := op.method.sendsData
     returnType := returnType
     responseKind := op.responseKind
     summary := op.summary
     isDeprecated := op.isDeprecated }, parameterNotes ++ dataNotes ++ returnNotes)

/-- The name under which an accessor exposes the method of an operation.  If tags are removed and
nothing is left, it is the whole name. -/
def exposedName (removesTag : Bool) (op : AnalyzedOperation) : String :=
  if removesTag then
    let stripped := Naming.withoutTag op.tag op.methodName
    if stripped.isEmpty then op.methodName else Identifier.sanitize stripped
  else op.methodName

/-! ## Assembly -/

/-- What an exposed name leads to: a method, and the last operation that exposed it. -/
structure Target where
  methodName : String
  label : String
deriving Repr, DecidableEq, Inhabited

/-- A client that is being assembled. -/
structure Draft where
  callables : List Callable := []
  groups : Named (Named Target) := []
  references : NameSet := []
  views : NameSet := []
  notes : List Diagnostic := []
deriving Repr, BEq, Inhabited

/-- How the methods are made: the library, the qualifier of its names, whether views are used, and
whether tags are removed. -/
structure Plan where
  lib : Library
  qualifier : String
  modifiers : Bool
  removesTag : Bool

namespace Draft

/-- Is there a method for the operation already? -/
def hasCallable (draft : Draft) (op : AnalyzedOperation) : Bool :=
  draft.callables.any fun c => c.path == op.path && c.method == op.method

/-- The draft with the method of an operation, unless another operation has the name. -/
def addCallable (draft : Draft) (plan : Plan) (op : AnalyzedOperation) : Except NameClash Draft :=
  match draft.callables.find? fun c => c.name == op.methodName with
  | some owner => .error ⟨op.methodName, owner.label, op.label, none⟩
  | none =>
    let (made, notes) := callable plan.lib plan.qualifier plan.modifiers op
    let views := match made.dataType with
      | some type => NameSet.union type.viewNames made.returnType.viewNames
      | none => made.returnType.viewNames
    .ok { draft with
      callables := draft.callables ++ [made]
      references := NameSet.union op.references draft.references
      views := NameSet.union views draft.views
      notes := draft.notes ++ notes }

/-- The draft with the operation exposed under its tag, unless the name leads to another method
there. -/
def expose (draft : Draft) (plan : Plan) (op : AnalyzedOperation) : Except NameClash Draft :=
  let exposed := exposedName plan.removesTag op
  let group := (draft.groups.get? op.tag).getD []
  let added : Draft :=
    { draft with groups := draft.groups.put op.tag (group.put exposed ⟨op.methodName, op.label⟩) }
  match group.get? exposed with
  | some previous =>
    if previous.methodName = op.methodName then .ok added
    else .error ⟨exposed, previous.label, op.label, some op.tag⟩
  | none => .ok added

/-- The draft with one more operation. -/
def add (plan : Plan) (draft : Draft) (op : AnalyzedOperation) : Except NameClash Draft := do
  let draft ← if draft.hasCallable op then pure draft else draft.addCallable plan op
  draft.expose plan op

end Draft

/-- The draft of a client for a list of operations. -/
def draft (plan : Plan) (operations : List AnalyzedOperation) : Except NameClash Draft :=
  operations.foldlM (Draft.add plan) {}

/-- The file that holds the type library. -/
def definitionsModule : String := "./definitions"

/-- The import of the names that a client uses, and their export. -/
def imports (space : Option String) (references views : NameSet) : List Declaration :=
  (if references.isEmpty && views.isEmpty then []
    else match space with
      | some space => [.importTypes definitionsModule [] (some space)]
      | none => [.importTypes definitionsModule (references ++ views) none]) ++
  (if references.isEmpty then [] else [.exportTypes references (some definitionsModule)])

/-- Does a method pick some of its parameters? -/
def picks (c : Callable) : Bool :=
  !c.headerParameters.isEmpty || !c.queryParameters.isEmpty

/-- The declarations of a finished draft. -/
def Draft.declarations (space : Option String) (draft : Draft) : List Declaration :=
  imports space draft.references draft.views ++
    draft.callables.map .callable ++
    draft.groups.map (fun group =>
      .tagGroup group.1 (group.2.map fun member => (member.1, member.2.methodName))) ++
    (if draft.callables.any picks then [.pickHelper] else [])

/-- The namespace that the settings give, unless it is empty. -/
def namespaceOf (settings : Settings) : Option String :=
  settings.typeNamespace.filter fun space => !space.isEmpty

/-- How the settings have the methods made. -/
def planOf (lib : Library) (settings : Settings) (modifiers : Bool) : Plan where
  lib := lib
  qualifier := match namespaceOf settings with
    | some space => space ++ "."
    | none => ""
  modifiers := modifiers
  removesTag := settings.removesTag

/-- The declarations of a client for a list of operations, with the diagnostics on its types. -/
def declarations (lib : Library) (settings : Settings) (modifiers : Bool)
    (operations : List AnalyzedOperation) :
    Except NameClash (List Declaration × List Diagnostic) := do
  let draft ← draft (planOf lib settings modifiers) operations
  return (draft.declarations (namespaceOf settings), draft.notes)

end TypedClient.Client

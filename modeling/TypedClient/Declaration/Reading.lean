import TypedClient.Declaration
import TypedClient.TypeExpr.Reading

/-!
# Declarations given as data

* `Declaration.ofValue?`: the declaration that a value gives.
-/

namespace TypedClient

/-- The method with a keyword. -/
def Method.ofName? (s : String) : Option Method :=
  Method.all.find? fun method => method.name == s

/-- The use of a response with a word. -/
def ResponseKind.ofName? (s : String) : Option ResponseKind :=
  [ResponseKind.json, .text, .binary, .void].find? fun kind => kind.name == s

namespace Declaration

/-- The member of an enumeration that a value gives. -/
def memberOf? (v : Value) : Option EnumMember := do
  let name ← v.requiredTextAt? "name"
  let value ← v.get? "value"
  return ⟨name, value⟩

/-- The members of an enumeration that a value gives. -/
def membersOf? : Value → Option (List EnumMember)
  | .list items => items.mapM memberOf?
  | _ => none

/-- The type under a key, or nothing. -/
def optionalTypeAt? (v : Value) (key : String) : Option (Option TypeExpr) :=
  match v.get? key with
  | none => some none
  | some .null => some none
  | some given => (TypeExpr.ofValue? given).map some

/-- The object type under a key, or nothing.  Its form need not be said. -/
def optionalObjectAt? (v : Value) (key : String) : Option (Option TypeExpr) :=
  match v.get? key with
  | none => some none
  | some .null => some none
  | some (.map entries) =>
    let full := if (Value.lookup? "kind" entries).isSome then entries
      else entries ++ [(.text "kind", .text "object")]
    match TypeExpr.ofValue? (.map full) with
    | some (.object fields index) => some (some (.object fields index))
    | _ => none
  | some _ => none

/-- The method that a value gives. -/
def callableOf? (v : Value) : Option Callable := do
  let name ← v.requiredTextAt? "name"
  let operationId ← v.requiredTextAt? "operation_id"
  let method ← Method.ofName? (← v.requiredTextAt? "http_method")
  let path ← v.requiredTextAt? "path"
  let pathParameters ← v.textsAt? "path_params" (some [])
  let headerParameters ← v.textsAt? "header_params" (some [])
  let queryParameters ← v.textsAt? "query_params" (some [])
  let parametersType ← optionalObjectAt? v "params_type"
  let dataType ← optionalTypeAt? v "data_type"
  let sendsData ← v.flagAt? "sends_data" false
  let returnType ← TypeExpr.ofValue? (← v.get? "return_type")
  let responseKind ← ResponseKind.ofName? (← v.textAt? "response_kind" "void")
  let summary ← v.optionalTextAt? "summary"
  let isDeprecated ← v.flagAt? "deprecated" false
  return {
    name := name
    operationId := operationId
    method := method
    path := path
    pathParameters := pathParameters
    headerParameters := headerParameters
    queryParameters := queryParameters
    parametersType := parametersType
    dataType := dataType
    sendsData := sendsData
    returnType := returnType
    responseKind := responseKind
    summary := summary
    isDeprecated := isDeprecated }

/-- The exposed names that a value gives, with the methods they lead to. -/
def exposedOf? : Value → Option (Named String)
  | .map entries => do
    let pairs ← entries.mapM fun (key, v) => do return (← key.text?, ← v.text?)
    return Named.ofList pairs
  | _ => none

/-- The declaration that a value gives. -/
def ofValue? (v : Value) : Option Declaration := do
  let kind ← v.requiredTextAt? "kind"
  if kind = "view-utilities" then return .viewUtilities
  else if kind = "enum" then
    let name ← v.requiredTextAt? "name"
    let members ← membersOf? (← v.get? "members")
    return .enumeration name members (← v.textAt? "source" "")
  else if kind = "alias" then
    let name ← v.requiredTextAt? "name"
    let type ← TypeExpr.ofValue? (← v.get? "type")
    return .alias name type (← v.textAt? "source" "")
  else if kind = "import" then
    let file ← v.requiredTextAt? "module"
    let names ← v.textsAt? "names" (some [])
    return .importTypes file names (← v.optionalTextAt? "namespace")
  else if kind = "export" then
    let names ← v.textsAt? "names" none
    return .exportTypes names (← v.optionalTextAt? "module")
  else if kind = "callable" then return .callable (← callableOf? v)
  else if kind = "tag-group" then
    let name ← v.requiredTextAt? "name"
    let members ← exposedOf? ((v.get? "members").getD (.map []))
    return .tagGroup name members
  else if kind = "pick-helper" then return .pickHelper
  else none

end Declaration

end TypedClient

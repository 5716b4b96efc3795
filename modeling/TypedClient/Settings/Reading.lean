import TypedClient.Settings
import TypedClient.Value.Flag

/-!
# Settings given as data

* `Settings.ofEntries?`: the settings that the entries of a map give; a missing entry leaves the
  default, an entry that does not fit refuses the whole, and unknown entries are passed over.
-/

namespace TypedClient.Settings

/-- A flag or no answer under a key. -/
def optionalFlagAt? (v : Value) (key : String) : Option (Option Bool) :=
  match v.get? key with
  | none => some none
  | some .null => some none
  | some given => given.flag?.map some

/-- The settings that the entries of a map give. -/
def ofEntries? (entries : Entries) : Option Settings := do
  let given : Value := .map entries
  let removesTag ← given.flagAt? "remove_tag_from_operation_id" false
  let modifiers ← optionalFlagAt? given "add_readonly_writeonly_modifiers"
  let typeNamespace ← given.optionalTextAt? "type_namespace"
  let clientName ← given.textAt? "client_name" "ApiClient"
  let definitionsFile ← given.textAt? "definitions_filename" "definitions.ts"
  let clientFile ← given.textAt? "api_filename" "api.ts"
  return ⟨removesTag, modifiers, typeNamespace, clientName, definitionsFile, clientFile⟩

end TypedClient.Settings

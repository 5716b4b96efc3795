import TypedClient.Json.Reader
import TypedClient.Problem
import TypedClient.Settings.Reading
import TypedClient.Store
import TypedClient.Text.Case
import TypedClient.Text.Encoding
import TypedClient.Value.Display

/-!
# Layers of settings

Settings come from four layers: the command line, the environment, the project file and the
defaults.  Each option has the value of the first of these layers that sets it.  The variables of
the environment are checked whether or not the command line overrides them; the values of the
project file are checked only where they are in effect.

* `Settings.Flags`, `Settings.Environment`: what the command line and the environment give.
* `Settings.projectEntries`: the entries of the project file.
* `Settings.resolve`: the settings that the layers give together.
* `Settings.LayerError.message`: the wording of what is wrong with a layer.
-/

namespace TypedClient.Settings

/-- What the command line gives. -/
structure Flags where
  removesTag : Option Bool := none
  modifiers : Option Bool := none
  /-- The namespace; an empty one asks for none. -/
  typeNamespace : Option String := none
deriving Repr, DecidableEq, Inhabited

/-- The variables of the environment. -/
abbrev Environment := List (String × String)

/-- What is wrong with a layer. -/
inductive LayerError where
  | missingFile (path : String)
  | notJson (path detail : String)
  | notMap (path : String)
  | flag (variableName given expected : String)
  | unfit
deriving Repr, DecidableEq

/-- The wording of what is wrong. -/
def LayerError.message : LayerError → String
  | .missingFile path => "Config file not found: " ++ path
  | .notJson path detail => "Invalid project config at " ++ path ++ ": " ++ detail
  | .notMap path => "Project config at " ++ path ++ " must be a JSON object"
  | .flag variableName given expected =>
    "Invalid value for " ++ variableName ++ ": " ++
      String.ofList (Text.displayQuoted given.toList) ++ " (expected " ++ expected ++ ")"
  | .unfit => "Invalid configuration: an option has a value that does not fit"

/-- The problem that is reported. -/
def LayerError.problem (e : LayerError) : Problem :=
  { kind := .config, message := e.message }

/-- Why there are no settings: a layer is wrong, or the project file cannot be read as a text. -/
inductive LayerFailure where
  | wrong (e : LayerError)
  /-- The file is not UTF-8. -/
  | undecodable
  /-- A numeral in the file has too many digits. -/
  | longNumeral
deriving Repr, DecidableEq

/-! ## The project file -/

/-- The name of the project file that is read without being asked for. -/
def projectFileName : String := "spectype.json"

/-- The entries that the bytes of a project file write. -/
def entriesOfFile (path : String) (data : ByteArray) : Except LayerFailure Entries :=
  match Text.readLines? data with
  | none => .error .undecodable
  | some text =>
    match Json.read text with
    | .ok (.map entries) => .ok entries
    | .ok _ => .error (.wrong (.notMap path))
    | .error .longNumeral => .error .longNumeral
    | .error (.fault fault position) =>
      .error (.wrong (.notJson path (fault.describe text.toList position)))

/-- The entries of the project file.  A file that is asked for has to exist; the one that is not
asked for lies in the working directory and may be absent. -/
def projectEntries (s : Store) (asked : Option String) : Except LayerFailure Entries :=
  match asked with
  | some given =>
    let path := Path.ofText given
    match s.fileAt? path with
    | some data => entriesOfFile path.text data
    | none => .error (.wrong (.missingFile path.text))
  | none =>
    let path := s.herePath.join ⟨"", [projectFileName]⟩
    match s.fileAt? path with
    | some data => entriesOfFile path.text data
    | none => .ok []

/-! ## The environment -/

/-- The variable for removing tags. -/
def removesTagVariable : String := "SPECTYPE_REMOVE_TAG_FROM_OPERATION_ID"

/-- The variable for views. -/
def modifiersVariable : String := "SPECTYPE_READONLY_WRITEONLY"

/-- The variable for the namespace. -/
def typeNamespaceVariable : String := "SPECTYPE_TYPE_NAMESPACE"

/-- The flag that a variable gives; blank it gives none, and so does the word `auto` where that is
allowed. -/
def flagOf (environment : Environment) (variableName : String) (allowsAuto : Bool) :
    Except LayerError (Option Bool) :=
  match environment.lookup variableName with
  | none => .ok none
  | some given =>
    let word := String.ofList (Text.lower (Text.trim given.toList))
    if word.isEmpty then .ok none
    else if ["1", "true", "yes", "on"].contains word then .ok (some true)
    else if ["0", "false", "no", "off"].contains word then .ok (some false)
    else if allowsAuto && word == "auto" then .ok none
    else .error (.flag variableName given (if allowsAuto then "true/false/auto" else "true/false"))

/-- The namespace that the environment gives; an empty one is none. -/
def namespaceOf (environment : Environment) : Option String :=
  (environment.lookup typeNamespaceVariable).filter fun s => !s.isEmpty

/-! ## All layers -/

/-- Writes an entry if there is a value for it. -/
def override (key : String) (value : Option Value) (entries : Entries) : Entries :=
  match value with
  | some v => Value.put (.text key) v entries
  | none => entries

/-- What the environment sets. -/
structure Overrides where
  removesTag : Option Bool
  modifiers : Option Bool
  typeNamespace : Option String

/-- What the environment sets, or what is wrong with it. -/
def environmentOverrides (environment : Environment) : Except LayerError Overrides := do
  let removesTag ← flagOf environment removesTagVariable false
  let modifiers ← flagOf environment modifiersVariable true
  return ⟨removesTag, modifiers, namespaceOf environment⟩

/-- The namespace that the command line sets: an empty one sets none at all. -/
def namespaceValue (s : String) : Value :=
  if s.isEmpty then .null else .text s

/-- The entries of all layers, a higher layer overriding a lower one. -/
def layered (project : Entries) (set : Overrides) (flags : Flags) : Entries :=
  override "type_namespace" (flags.typeNamespace.map namespaceValue)
    (override "add_readonly_writeonly_modifiers" (flags.modifiers.map .bool)
      (override "remove_tag_from_operation_id" (flags.removesTag.map .bool)
        (override "type_namespace" (set.typeNamespace.map .text)
          (override "add_readonly_writeonly_modifiers" (set.modifiers.map .bool)
            (override "remove_tag_from_operation_id" (set.removesTag.map .bool) project)))))

/-- The settings that the project file, the environment and the command line give together. -/
def resolve (s : Store) (asked : Option String) (environment : Environment) (flags : Flags) :
    Except LayerFailure Settings := do
  let project ← projectEntries s asked
  let set ← (environmentOverrides environment).mapError LayerFailure.wrong
  match ofEntries? (layered project set flags) with
  | some settings => return settings
  | none => throw (.wrong .unfit)

end TypedClient.Settings

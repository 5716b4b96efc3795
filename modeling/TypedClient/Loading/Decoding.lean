import TypedClient.Json.Reader
import TypedClient.Yaml.Content

/-!
# Decoding documents

A document is a map, written as JSON or as YAML.  What is known about the format decides which one
is tried: JSON is tried first unless the text is known to be YAML, and YAML is tried next unless the
text is known to be JSON.

* `Loading.Format`: the formats.
* `Loading.decode`: the map that a text writes, or why there is none.
* `Loading.DecodeError.message`: the wording of what is wrong with a text.
-/

namespace TypedClient.Loading

/-- The formats of documents. -/
inductive Format where
  | json
  | yaml
deriving Repr, DecidableEq

/-- What is wrong with the text of a document. -/
inductive DecodeError where
  /-- It should be JSON and is not. -/
  | notJson (detail : String)
  /-- It is no YAML, and no JSON either if that was tried. -/
  | unreadable (jsonDetail : Option String)
  /-- It is not a map. -/
  | notMap (found : Value)
deriving Repr, BEq

/-- The wording of what is wrong. -/
def DecodeError.message : DecodeError → String
  | .notJson detail => "Invalid JSON: " ++ detail
  | .unreadable jsonDetail =>
    let json := match jsonDetail with
      | some detail => "JSON error: " ++ detail ++ "\n  "
      | none => ""
    "Failed to parse document as JSON or YAML\n  " ++ json ++ "YAML error: not a YAML document"
  | .notMap found =>
    let kind := match found with
      | .null => "empty document"
      | v => v.kindName
    "Document must be a JSON/YAML object (got " ++ kind ++ ")"

/-- Why a text is not decoded: something is wrong with it, or it holds a value that is not read. -/
inductive DecodeFailure where
  | wrong (e : DecodeError)
  /-- A numeral has too many digits. -/
  | longNumeral
  /-- A scalar of a YAML text has no value. -/
  | scalar (fault : Yaml.Fault)
deriving Repr, BEq

/-- The value, if it is a map. -/
def requireMap : Value → Except DecodeFailure Value
  | .map entries => .ok (.map entries)
  | v => .error (.wrong (.notMap v))

/-- The map that a YAML text writes; JSON may have been tried before. -/
def decodeYaml (jsonDetail : Option String) (text : String) : Except DecodeFailure Value :=
  match Yaml.read text with
  | .ok v => requireMap v
  | .error .malformed => .error (.wrong (.unreadable jsonDetail))
  | .error fault => .error (.scalar fault)

/-- The map that a text writes. -/
def decode (known : Option Format) (text : String) : Except DecodeFailure Value :=
  if known = some .yaml then decodeYaml none text
  else
    match Json.read text with
    | .ok v => requireMap v
    | .error .longNumeral => .error .longNumeral
    | .error (.fault fault position) =>
      let detail := fault.describe text.toList position
      if known = some .json then .error (.wrong (.notJson detail))
      else decodeYaml (some detail) text

end TypedClient.Loading

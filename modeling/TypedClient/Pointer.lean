import TypedClient.Value
import TypedClient.Text.Segments
import TypedClient.Text.Digits

/-!
# Pointers into a document

An internal reference `#/a/b/0` names a place of a document: each segment is the key of a map or
the position of a list element.  Inside a segment `~1` stands for a slash and `~0` for a tilde.

* `Pointer.unescape`, `Pointer.escape`: a segment's text and its written form.
* `Pointer.resolve`: the value at the place, or why there is none.
* `Pointer.schemaName?`: the name in a reference to a named schema.
-/

namespace TypedClient.Pointer

/-- Why a reference leads nowhere. -/
inductive Error where
  | external (ref : String)
  | missingKey (ref segment : String)
  | badIndex (ref segment : String)
  | notContainer (ref kind : String)
deriving Repr, DecidableEq

/-- The wording of an error. -/
def Error.message : Error → String
  | .external ref =>
    "External $ref not supported: " ++ ref ++ ". Only internal references (#/...) are handled."
  | .missingKey ref segment =>
    "Cannot resolve $ref '" ++ ref ++ "': key '" ++ segment ++ "' not found"
  | .badIndex ref segment =>
    "Cannot resolve $ref '" ++ ref ++ "': invalid array index '" ++ segment ++ "'"
  | .notContainer ref kind => "Cannot resolve $ref '" ++ ref ++ "': cannot navigate into " ++ kind

/-- The text that a written segment stands for: first every `~1` becomes a slash, then every `~0` a
tilde. -/
def unescape (segment : List Char) : List Char :=
  Text.replaceAll ['~', '0'] ['~'] (Text.replaceAll ['~', '1'] ['/'] segment)

/-- The written form of a segment: tildes become `~0`, then slashes `~1`. -/
def escape (segment : List Char) : List Char :=
  segment.flatMap fun c => if c = '~' then ['~', '0'] else if c = '/' then ['~', '1'] else [c]

/-- The list element at a position; negative positions count from the end. -/
def element? (items : List Value) (index : Int) : Option Value :=
  if 0 ≤ index then items[index.toNat]?
  else if index.natAbs ≤ items.length then items[items.length - index.natAbs]?
  else none

/-- One step into a value. -/
def enter (ref : String) (segment : List Char) : Value → Except Error Value
  | .map entries =>
    match Value.lookup? (String.ofList segment) entries with
    | some v => .ok v
    | none => .error (.missingKey ref (String.ofList segment))
  | .list items =>
    match (Text.readInteger? segment).bind (element? items) with
    | some v => .ok v
    | none => .error (.badIndex ref (String.ofList segment))
  | v => .error (.notContainer ref v.kindName)

/-- The value at the end of a path of segments. -/
def follow (ref : String) : (path : List (List Char)) → Value → Except Error Value
  | [], v => .ok v
  | segment :: path, v => do follow ref path (← enter ref segment v)

/-- The value that a reference names in a document. -/
def resolve (ref : String) (root : Value) : Except Error Value :=
  match ref.toList with
  | '#' :: '/' :: path => follow ref ((Text.segments '/' path).map unescape) root
  | _ => .error (.external ref)

/-- What all references to named schemas start with. -/
def schemaPlace : List Char := "#/components/schemas/".toList

/-- The name in a reference to a named schema; everything behind the place is the name. -/
def schemaName? (ref : String) : Option String :=
  if schemaPlace.isPrefixOf ref.toList then
    some (String.ofList (unescape (ref.toList.drop schemaPlace.length)))
  else
    none

end TypedClient.Pointer

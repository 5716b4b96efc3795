import TypedClient.Yaml.Numeral
import TypedClient.Yaml.Timestamp

/-!
# Tags

A tag says what kind of value a node describes.  A plain scalar without a tag has the tag of the
kind that its text looks like, any other node without a tag is a text, a list or a map.

* `Yaml.Tag`: the kinds.
* `Yaml.Tag.ofText`: the kind that a written tag names.
* `Yaml.Tag.ofPlain`: the kind of a plain scalar.
-/

namespace TypedClient.Yaml

/-- The kinds of nodes. -/
inductive Tag where
  | null
  | bool
  | int
  | float
  | timestamp
  | binary
  | text
  | list
  | map
  | set
  /-- Maps with single entries, in order. -/
  | pairs
  /-- The key under which another map is merged into this one. -/
  | merge
  /-- The key of the entry that stands for the whole map where a scalar is wanted. -/
  | standIn
  /-- A kind for which there are no values. -/
  | other
deriving Repr, DecidableEq

namespace Tag

/-- The names of the kinds. -/
def names : List (String × Tag) :=
  [("null", .null), ("bool", .bool), ("int", .int), ("float", .float), ("timestamp", .timestamp),
    ("binary", .binary), ("str", .text), ("seq", .list), ("map", .map), ("set", .set),
    ("omap", .pairs), ("pairs", .pairs), ("merge", .merge), ("value", .standIn)]

/-- What the tags of the format itself start with. -/
def namespaceStart : String := "tag:yaml.org,2002:"

/-- The kind that a complete tag names. -/
def ofText (tag : String) : Tag :=
  match (names.map fun n => (namespaceStart ++ n.1, n.2)).lookup tag with
  | some kind => kind
  | none => .other

/-- The words that stand for truth values. -/
def truthWords : List (String × Bool) :=
  [("yes", true), ("no", false), ("true", true), ("false", false), ("on", true), ("off", false)]

/-- Is the text a word for a truth value, in small letters, in capitals, or with a capital first
letter? -/
def isTruthWord (s : String) : Bool :=
  truthWords.any fun (word, _) => s == word || s == word.capitalize || s == word.map Char.toUpper

/-- The words for null. -/
def nullWords : List String := ["~", "null", "Null", "NULL"]

/-- The kind of a plain scalar.  A line feed at the end of the text does not count, but a text that
holds nothing else is no null. -/
def ofPlain (s : String) : Tag :=
  let cs := s.toList
  let body := if cs.getLast? = some '\n' then cs.dropLast else cs
  let word := String.ofList body
  if cs.isEmpty then .null
  else if isTruthWord word then .bool
  else if isImplicitFloat body then .float
  else if isImplicitInt body then .int
  else if word = "<<" then .merge
  else if nullWords.contains word then .null
  else if Timestamp.isImplicit body then .timestamp
  else if word = "=" then .standIn
  else .text

end Tag

end TypedClient.Yaml

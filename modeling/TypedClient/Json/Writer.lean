import TypedClient.Value.Display

/-!
# Writing JSON texts

Values are written over several lines, each level of containers indented by two blanks; empty
containers stay on one line.  Characters outside ASCII are written as they are.

* `Json.quoted`: a quoted text.
* `Json.write`: the text of a value.
-/

namespace TypedClient.Json

/-- A character inside a quoted text. -/
def writeChar (c : Char) : List Char :=
  if c = '"' ∨ c = '\\' then ['\\', c]
  else if c = '\n' then ['\\', 'n']
  else if c = '\r' then ['\\', 'r']
  else if c = '\t' then ['\\', 't']
  else if c = '\x08' then ['\\', 'b']
  else if c = '\x0c' then ['\\', 'f']
  else if c.toNat < 32 then '\\' :: 'u' :: Text.hexPadded 4 c.toNat
  else [c]

/-- A text in quotes. -/
def quoted (s : String) : String :=
  "\"" ++ String.ofList (s.toList.flatMap writeChar) ++ "\""

/-- The text of a floating-point number. -/
def floatText : Binary64 → String
  | .nan => "NaN"
  | .inf s => if s then "-Infinity" else "Infinity"
  | x => x.text

/-- The name under which an entry is written. -/
def nameText : Value → String
  | .text s => s
  | .null => "null"
  | .bool b => if b then "true" else "false"
  | .int i => toString i
  | .float x => floatText x
  | v => v.display

/-- A line break and the indentation of a level. -/
def lineBreak (level : Nat) : String :=
  "\n" ++ String.ofList (List.replicate (2 * level) ' ')

mutual

/-- The text of a value that stands at a level of nesting. -/
def writeAt (level : Nat) : Value → String
  | .null => "null"
  | .bool b => if b then "true" else "false"
  | .int i => toString i
  | .float x => floatText x
  | .text s => quoted s
  | .list items =>
    if items.isEmpty then "[]"
    else "[" ++ lineBreak (level + 1) ++
      Text.joinWith ("," ++ lineBreak (level + 1)) (writeItems (level + 1) items) ++
      lineBreak level ++ "]"
  | .pair a b =>
    "[" ++ lineBreak (level + 1) ++ writeAt (level + 1) a ++ "," ++ lineBreak (level + 1) ++
      writeAt (level + 1) b ++ lineBreak level ++ "]"
  | .map entries =>
    if entries.isEmpty then "\x7b\x7d"
    else "\x7b" ++ lineBreak (level + 1) ++
      Text.joinWith ("," ++ lineBreak (level + 1)) (writeEntries (level + 1) entries) ++
      lineBreak level ++ "\x7d"
  | v => quoted v.display

/-- The texts of the elements of a list. -/
def writeItems (level : Nat) : List Value → List String
  | [] => []
  | v :: rest => writeAt level v :: writeItems level rest

/-- The texts of the entries of a map. -/
def writeEntries (level : Nat) : List (Value × Value) → List String
  | [] => []
  | (k, v) :: rest =>
    (quoted (nameText k) ++ ": " ++ writeAt level v) :: writeEntries level rest

end

/-- The text of a value. -/
def write (v : Value) : String :=
  writeAt 0 v

end TypedClient.Json

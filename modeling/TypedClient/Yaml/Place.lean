/-!
# Characters and their places

The indentation of a YAML text carries meaning, so its characters are read together with their
places: index, line and column.  Line ends are unified on the way (`CR LF`, a lone `CR` and the
next-line character become one line feed), while the index goes on counting the characters of the
text as written.  The list ends with a place behind the text that holds the character zero, which a
text cannot contain.

* `Yaml.placesOf`: the characters of a text with their places.
* `Yaml.isAllowed`: the characters that a text may contain.
* `Yaml.startsMarker`: three hyphens or three points that stand alone.
-/

namespace TypedClient.Yaml

/-- Why a text has no value. -/
inductive Fault where
  /-- The text breaks the rules of the format, or describes what has no value. -/
  | malformed
  /-- A numeral, a date or an escaped character is out of range. -/
  | outOfRange
  /-- An escaped character has a number that is far out of range. -/
  | farOutOfRange
  /-- A numeral is empty. -/
  | emptyNumeral
  /-- A truth value is written with an unknown word. -/
  | unknownWord
  /-- What should be a date is none. -/
  | notDate
deriving Repr, DecidableEq

/-- A character and where it stands. -/
structure Place where
  char : Char
  index : Nat
  line : Nat
  column : Nat
deriving Repr, DecidableEq

/-- The character behind the end of a text. -/
def endMark : Char := '\x00'

/-! ## Classes of characters -/

/-- May a text contain the character? -/
def isAllowed (c : Char) : Bool :=
  let n := c.toNat
  n == 9 || n == 10 || n == 13 || (32 ≤ n && n ≤ 126) || n == 0x85 || (0xa0 ≤ n && n ≤ 0xd7ff) ||
    (0xe000 ≤ n && n ≤ 0xfffd) || 0x10000 ≤ n

/-- Does the character end a line, line ends being unified? -/
def isBreak (c : Char) : Bool :=
  c == '\n' || c == '\u2028' || c == '\u2029'

/-- Does the character end a line or the text? -/
def isLineStop (c : Char) : Bool :=
  c == endMark || isBreak c

/-- Is the character a blank that may stand between two words of a line? -/
def isSpacing (c : Char) : Bool :=
  c == ' ' || c == '\t'

/-- Does a word end in front of the character? -/
def endsWord (c : Char) : Bool :=
  isSpacing c || isLineStop c

/-- Is the character one of the brackets and the comma, which delimit the items of a flow
collection? -/
def isFlowMark (c : Char) : Bool :=
  c == ',' || c == '[' || c == ']' || c == '\x7b' || c == '\x7d'

/-- May the character stand in the name of an anchor, a directive or a tag handle? -/
def isNameChar (c : Char) : Bool :=
  c.isAlphanum || c == '-' || c == '_'

/-! ## Places -/

/-- The characters of a text with their places, the first one standing at the given place. -/
def placesFrom (index line column : Nat) : List Char → List Place
  | [] => [⟨endMark, index, line, column⟩]
  | '\r' :: '\n' :: rest => ⟨'\n', index, line, column⟩ :: placesFrom (index + 2) (line + 1) 0 rest
  | c :: rest =>
    let unified := if c = '\r' ∨ c = '\x85' then '\n' else c
    if isBreak unified then
      ⟨unified, index, line, column⟩ :: placesFrom (index + 1) (line + 1) 0 rest
    else
      ⟨c, index, line, column⟩ ::
        placesFrom (index + 1) line (if c = '\ufeff' then column else column + 1) rest

/-- The characters of a text with their places.  A byte order mark at the start is passed over. -/
def placesOf (s : List Char) : List Place :=
  match s with
  | '\ufeff' :: rest => placesFrom 1 0 0 rest
  | _ => placesFrom 0 0 0 s

/-- The character at the front. -/
def headChar : List Place → Char
  | [] => endMark
  | p :: _ => p.char

/-- The column of the front. -/
def headColumn : List Place → Nat
  | [] => 0
  | p :: _ => p.column

/-- The characters without their places. -/
def charsOf (places : List Place) : List Char :=
  places.map Place.char

/-- The longest run of a class at the front. -/
def runOf (p : Char → Bool) (places : List Place) : List Char :=
  charsOf (places.takeWhile fun place => p place.char)

/-- The length of the longest run of a class at the front. -/
def runLength (p : Char → Bool) (places : List Place) : Nat :=
  (runOf p places).length

/-- Do three hyphens that stand alone come next? -/
def startsHyphens : List Place → Bool
  | a :: b :: c :: rest =>
    a.char == '-' && b.char == '-' && c.char == '-' && endsWord (headChar rest)
  | _ => false

/-- Do three points that stand alone come next? -/
def startsPoints : List Place → Bool
  | a :: b :: c :: rest =>
    a.char == '.' && b.char == '.' && c.char == '.' && endsWord (headChar rest)
  | _ => false

/-- Does a mark come next that would start or end a document at the start of a line? -/
def startsMarker (places : List Place) : Bool :=
  startsHyphens places || startsPoints places

/-- The length of the blanks and the comment at the front of the rest of a line. -/
def trailerLength (places : List Place) : Nat :=
  let blanks := runLength (· == ' ') places
  let behind := places.drop blanks
  if headChar behind = '#' then blanks + runLength (fun c => !isLineStop c) behind else blanks

/-- The length of the rest of a line that holds nothing but blanks and a comment, with the end of
the line. -/
def restOfLine? (places : List Place) : Option Nat :=
  let size := trailerLength places
  let next := headChar (places.drop size)
  if next = endMark then some size
  else if isBreak next then some (size + 1)
  else none

end TypedClient.Yaml

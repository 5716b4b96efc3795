import TypedClient.Value
import TypedClient.Text.Digits
import TypedClient.Text.Surrogate

/-!
# Lexemes of JSON texts

A JSON text is first cut into lexemes, each with the position of its first character.  What cannot
be a lexeme ends the sequence: whether it is a fault of its own or stands where something else was
expected is decided by the reader.

* `Json.Fault`: what can be wrong with a JSON text.
* `Json.Lexeme`: a lexeme; `Json.lexemes` cuts a text.
* `Json.scanText`: the contents of a quoted text.
-/

namespace TypedClient.Json

/-- What can be wrong with a JSON text. -/
inductive Fault where
  | valueExpected
  | nameExpected
  | colonExpected
  | commaExpected
  | trailingData
  | unterminatedText
  | controlCharacter
  | unknownEscape
  | incompleteEscape
  | byteOrderMark
deriving Repr, DecidableEq

/-- The smallest parts of a JSON text. -/
inductive Token where
  | openMap
  | closeMap
  | openList
  | closeList
  | colon
  | comma
  | text (s : String)
  | scalar (v : Value)
  /-- A numeral with more digits than are read. -/
  | longNumeral
  /-- A quoted text with a fault inside, which lies at `position`. -/
  | faulty (fault : Fault) (position : Nat)
  /-- A character with which no lexeme starts. -/
  | stray
  | finish
deriving Repr, BEq

/-- A token and the position of its first character. -/
structure Lexeme where
  start : Nat
  token : Token
deriving Repr, BEq

/-- The white space between lexemes. -/
def isSpace (c : Char) : Bool :=
  c == ' ' || c == '\t' || c == '\n' || c == '\r'

/-! ## Quoted texts -/

/-- The number that four hexadecimal digits at the front of a text write. -/
def fourHex? : List Char → Option Nat
  | a :: b :: c :: d :: _ =>
    match Text.hexDigit? a, Text.hexDigit? b, Text.hexDigit? c, Text.hexDigit? d with
    | some w, some x, some y, some z => some (((w * 16 + x) * 16 + y) * 16 + z)
    | _, _, _, _ => none
  | _ => none

/-- The character that `\u` and what follows it write, with the number of characters taken, or the
fault with its distance from the `u`.  `rest` is the text behind the `u`; at least one character has
to follow the digits. -/
def unicodeEscape (rest : List Char) : Except (Fault × Nat) (Char × Nat) :=
  match (if rest.length ≤ 4 then none else fourHex? rest) with
  | none => .error (.incompleteEscape, 0)
  | some unit =>
    let behind := rest.drop 4
    match behind with
    | '\\' :: 'u' :: pair =>
      if Text.isHighHalf unit && decide (6 < behind.length) then
        match fourHex? pair with
        | none => .error (.incompleteEscape, 6)
        | some second =>
          if Text.isLowHalf second then
            .ok (Text.ofHalves unit second, 10)
          else .ok (Text.ofCodeUnit unit, 4)
      else .ok (Text.ofCodeUnit unit, 4)
    | _ => .ok (Text.ofCodeUnit unit, 4)

/-- The character that an escape of one letter writes. -/
def letterEscape? (c : Char) : Option Char :=
  if c = '"' ∨ c = '\\' ∨ c = '/' then some c
  else if c = 'b' then some '\x08'
  else if c = 'f' then some '\x0c'
  else if c = 'n' then some '\n'
  else if c = 'r' then some '\r'
  else if c = 't' then some '\t'
  else none

/-- The characters of a quoted text that was opened at `openAt`, up to its closing quote, and the
position behind that quote.  `found` holds what has been read, last character first; `skip` counts
the characters of an escape that are still to be passed over. -/
def scanText (openAt : Nat) :
    (position skip : Nat) → (found : List Char) → List Char →
      Except (Fault × Nat) (List Char × Nat)
  | _, _, _, [] => .error (.unterminatedText, openAt)
  | position, skip + 1, found, _ :: rest => scanText openAt (position + 1) skip found rest
  | position, 0, found, c :: rest =>
    if c = '"' then .ok (found.reverse, position + 1)
    else if c = '\\' then
      match rest with
      | [] => .error (.unterminatedText, openAt)
      | e :: behind =>
        if e = 'u' then
          match unicodeEscape behind with
          | .ok (char, taken) =>
            scanText openAt (position + 1) (taken + 1) (char :: found) (e :: behind)
          | .error (fault, distance) => .error (fault, position + 1 + distance)
        else
          match letterEscape? e with
          | some char => scanText openAt (position + 1) 1 (char :: found) (e :: behind)
          | none => .error (.unknownEscape, position)
    else if c.toNat < 32 then .error (.controlCharacter, position)
    else scanText openAt (position + 1) 0 (c :: found) rest

/-! ## Numbers and words -/

/-- Is the character one of the ten ASCII digits? -/
def isDigit (c : Char) : Bool := '0' ≤ c && c ≤ '9'

/-- The value of a run of ASCII digits. -/
def digitsValue (ds : List Char) : Nat :=
  ds.foldl (fun n c => n * 10 + (c.toNat - 48)) 0

/-- The integer digits a text starts with: a lone zero, or a run that starts with another digit. -/
def wholePart (s : List Char) : List Char :=
  match s with
  | '0' :: _ => ['0']
  | _ => s.takeWhile isDigit

/-- The digits of a fraction at the front of a text, if a point and a digit stand there. -/
def fractionPart : List Char → List Char
  | '.' :: rest => rest.takeWhile isDigit
  | _ => []

/-- The exponent at the front of a text, with the number of characters it takes. -/
def exponentPart? : List Char → Option (Int × Nat)
  | c :: rest =>
    if c = 'e' ∨ c = 'E' then
      let (sign, digits, mark) := match rest with
        | '-' :: ds => ((-1 : Int), ds.takeWhile isDigit, 2)
        | '+' :: ds => (1, ds.takeWhile isDigit, 2)
        | ds => (1, ds.takeWhile isDigit, 1)
      if digits.isEmpty then none else some (sign * digitsValue digits, mark + digits.length)
    else none
  | [] => none

/-- The numeral at the front of a text with the number of characters it takes. -/
def numeral? (s : List Char) : Option (Token × Nat) :=
  let negative := s.head? == some '-'
  let body := if negative then s.drop 1 else s
  let whole := wholePart body
  if whole.isEmpty then none
  else
    let behind := body.drop whole.length
    let fraction := fractionPart behind
    let fractionSize := if fraction.isEmpty then 0 else fraction.length + 1
    let exponent := exponentPart? (behind.drop fractionSize)
    let size := (if negative then 1 else 0) + whole.length + fractionSize
    match exponent with
    | some (power, taken) =>
      some (.scalar (.float (.ofDecimal negative (digitsValue (whole ++ fraction))
        (power - fraction.length))), size + taken)
    | none =>
      if fraction.isEmpty then
        if whole.length > Text.numeralLimit then some (.longNumeral, size)
        else
          let n : Int := digitsValue whole
          some (.scalar (.int (if negative then -n else n)), size)
      else
        some (.scalar (.float (.ofDecimal negative (digitsValue (whole ++ fraction))
          (-fraction.length))), size)

/-- The words that stand for values. -/
def words : List (List Char × Value) :=
  [("null".toList, .null), ("true".toList, .bool true), ("false".toList, .bool false),
    ("NaN".toList, .float .nan), ("Infinity".toList, .float (.inf false)),
    ("-Infinity".toList, .float (.inf true))]

/-- The word at the front of a text, with its length. -/
def word? (s : List Char) : Option (Token × Nat) :=
  (words.find? fun w => w.1.isPrefixOf s).map fun w => (.scalar w.2, w.1.length)

/-! ## Cutting a text -/

/-- The token that starts with `c` at a position, and the number of further characters it takes. -/
def token (position : Nat) (c : Char) (rest : List Char) : Token × Nat :=
  if c = '\x7b' then (.openMap, 0)
  else if c = '\x7d' then (.closeMap, 0)
  else if c = '[' then (.openList, 0)
  else if c = ']' then (.closeList, 0)
  else if c = ':' then (.colon, 0)
  else if c = ',' then (.comma, 0)
  else if c = '"' then
    match scanText position (position + 1) 0 [] rest with
    | .ok (chars, behind) => (.text (String.ofList chars), behind - position - 1)
    | .error (fault, place) => (.faulty fault place, 0)
  else
    match word? (c :: rest) with
    | some (t, size) => (t, size - 1)
    | none =>
      match numeral? (c :: rest) with
      | some (t, size) => (t, size - 1)
      | none => (.stray, 0)

/-- Does the sequence of lexemes end with the token? -/
def Token.isLast : Token → Bool
  | .longNumeral => true
  | .faulty _ _ => true
  | .stray => true
  | _ => false

/-- The lexemes of a text whose first character has the given position. -/
def lexemesFrom (position : Nat) : List Char → List Lexeme
  | [] => [⟨position, .finish⟩]
  | c :: rest =>
    if isSpace c then lexemesFrom (position + 1) rest
    else
      let (t, extra) := token position c rest
      if t.isLast then [⟨position, t⟩]
      else ⟨position, t⟩ :: lexemesFrom (position + 1 + extra) (rest.drop extra)
termination_by s => s.length
decreasing_by
  · simp only [List.length_cons]; omega
  · simp only [List.length_drop, List.length_cons]; omega

/-- The lexemes of a text. -/
def lexemes (s : List Char) : List Lexeme :=
  lexemesFrom 0 s

end TypedClient.Json

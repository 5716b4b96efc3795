import TypedClient.Binary64.Notation
import TypedClient.Text.Segments

/-!
# Numerals

Whole numbers are written in base two, eight, ten or sixteen or in base sixty with colons between
the digits; floats are written with a point, with or without an exponent, in base sixty, or as
words.  Underscores may stand between digits.

* `Yaml.isImplicitInt`, `Yaml.isImplicitFloat`: the numerals that need no tag.
* `Yaml.readInt`, `Yaml.readFloat`: the number that a numeral writes.
-/

namespace TypedClient.Yaml

/-! ## Numerals that need no tag -/

/-- Is the character a digit or an underscore? -/
def isDigitOrUnderscore (c : Char) : Bool := c.isDigit || c == '_'

/-- The text without a sign at the front. -/
def unsigned : List Char → List Char
  | '+' :: s => s
  | '-' :: s => s
  | s => s

/-- Is the text nonempty with all characters in a class? -/
def isRunOf (p : Char → Bool) (s : List Char) : Bool :=
  !s.isEmpty && s.all p

/-- A digit in base sixty behind a colon: one decimal digit, or two of which the first is at most
five. -/
def isSexagesimalDigit : List Char → Bool
  | [a] => a.isDigit
  | [a, b] => '0' ≤ a && a ≤ '5' && b.isDigit
  | _ => false

/-- Does the text consist of a decimal numeral and further digits in base sixty? -/
def isSexagesimal (leads : Char → Bool) (s : List Char) : Bool :=
  match Text.segments ':' s with
  | (first :: more) :: next :: rest =>
    leads first && more.all isDigitOrUnderscore && (next :: rest).all isSexagesimalDigit
  | _ => false

/-- Is the first digit of a number other than zero? -/
def isNonzeroDigit (c : Char) : Bool := '1' ≤ c && c ≤ '9'

/-- Is the text a whole number that needs no tag? -/
def isImplicitInt (s : List Char) : Bool :=
  let body := unsigned s
  match body with
  | '0' :: 'b' :: ds => isRunOf (fun c => c = '0' || c = '1' || c = '_') ds
  | '0' :: 'x' :: ds => isRunOf (fun c => (Text.hexDigit? c).isSome || c = '_') ds
  | '0' :: ds => ds.all fun c => ('0' ≤ c && c ≤ '7') || c = '_'
  | d :: ds => isNonzeroDigit d && ds.all isDigitOrUnderscore || isSexagesimal isNonzeroDigit body
  | [] => false

/-- Is the text empty or the exponent of a float, with its sign? -/
def isExponent : List Char → Bool
  | [] => true
  | e :: sign :: ds => (e = 'e' || e = 'E') && (sign = '+' || sign = '-') && isRunOf Char.isDigit ds
  | _ => false

/-- Is the text a fraction behind its point, perhaps with an exponent? -/
def isFraction (s : List Char) : Bool :=
  isExponent (s.dropWhile isDigitOrUnderscore)

/-- Is the text a float that needs no tag? -/
def isImplicitFloat (s : List Char) : Bool :=
  let body := unsigned s
  if body = ".inf".toList || body = ".Inf".toList || body = ".INF".toList then true
  else if s = ".nan".toList || s = ".NaN".toList || s = ".NAN".toList then true
  else
    match s with
    | '.' :: d :: fraction => d.isDigit && isFraction fraction
    | _ =>
      let whole := body.takeWhile fun c => isDigitOrUnderscore c || c == ':'
      match body.drop whole.length with
      | '.' :: fraction =>
        let isDecimal := match whole with
          | d :: ds => d.isDigit && ds.all isDigitOrUnderscore
          | [] => false
        (isDecimal && isFraction fraction) ||
          (isSexagesimal Char.isDigit whole && fraction.all isDigitOrUnderscore)
      | _ => false

/-! ## Whole numbers -/

/-- The value of a digit in bases up to sixteen, decimal digits of all scripts included. -/
def digitIn? (base : Nat) (c : Char) : Option Nat :=
  match Text.digitValue? c with
  | some d => if d < base then some d else none
  | none =>
    match Text.hexDigit? c with
    | some d => if d < base then some d else none
    | none => none

/-- The letters that may announce a base behind a zero. -/
def baseLetters : Nat → List Char
  | 2 => ['b', 'B']
  | 8 => ['o', 'O']
  | 16 => ['x', 'X']
  | _ => []

/-- The whole number that a text writes in base two, eight or sixteen, white space around it, a
sign and a zero with the letter of the base allowed. -/
def readInBase? (base : Nat) (s : List Char) : Option Int :=
  let trimmed := Text.dropEndWhile Text.isNumeralBlank (s.dropWhile Text.isNumeralBlank)
  let body := unsigned trimmed
  let ds := match body with
    | '0' :: letter :: ds => if (baseLetters base).contains letter then ds else body
    | _ => body
  if ds.isEmpty then none
  else
    (ds.mapM (digitIn? base)).map fun values =>
      let n : Int := Text.valueOfDigits base values
      if trimmed.head? = some '-' then -n else n

/-- The value of digits in base sixty, the first one being the highest. -/
def sexagesimal (digits : List Int) : Int :=
  digits.foldl (fun value digit => value * 60 + digit) 0

/-- Why a numeral has no value. -/
inductive NumeralFault where
  | empty
  | invalid
deriving Repr, DecidableEq

/-- The whole number that a text writes. -/
def readInt (s : List Char) : Except NumeralFault Int :=
  let s := s.filter (· ≠ '_')
  let body := unsigned s
  let size? : Option Int := match body with
    | ['0'] => some 0
    | '0' :: 'b' :: ds => readInBase? 2 ds
    | '0' :: 'x' :: ds => readInBase? 16 ds
    | '0' :: _ => readInBase? 8 body
    | _ =>
      if body.contains ':' then ((Text.segments ':' body).mapM Text.readInteger?).map sexagesimal
      else Text.readInteger? body
  if body.isEmpty then .error .empty
  else
    match size? with
    | some n => .ok (if s.head? = some '-' then -n else n)
    | none => .error .invalid

/-! ## Floats -/

/-- The value of floats as digits in base sixty: the last one counts as it is, each one in front of
it sixty times as much, and the sum is built from the last one on. -/
def sexagesimalFloat (digits : List Binary64) : Binary64 :=
  (digits.reverse.foldl (fun (value, base) digit =>
    (value.add (digit.mul (.ofInt base)), base * 60)) (Binary64.zero false, (1 : Int))).1

/-- The float that a text in lower case writes. -/
def readFloat (s : List Char) : Except NumeralFault Binary64 :=
  let s := s.filter (· ≠ '_')
  let body := unsigned s
  let size? : Option Binary64 :=
    if body = ".inf".toList then some (.inf false)
    else if body = ".nan".toList then some .nan
    else if body.contains ':' then
      ((Text.segments ':' body).mapM Binary64.ofText?).map sexagesimalFloat
    else Binary64.ofText? body
  if s.isEmpty then .error .empty
  else
    match size? with
    | some x => .ok (if s.head? = some '-' then x.neg else x)
    | none => .error .invalid

end TypedClient.Yaml

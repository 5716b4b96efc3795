import TypedClient.Binary64.Shortest
import TypedClient.Text.Digits
import TypedClient.Text.Case

/-!
# The text of a floating-point number

* `Binary64.text`: the shortest digits that read back, positional between `10 ^ -4` and
  `10 ^ 16` and with a signed exponent of at least two digits outside.
* `Binary64.ofText?`: the number that a decimal numeral writes; `inf`, `infinity` and `nan` are
  numerals too, a sign may stand in front and white space around.
-/

namespace TypedClient

/-- Decimals whose leading digit stands for less than `10 ^ leastPositional` or for at least
`10 ^ firstExponential` are written with an exponent. -/
structure DecimalFormat where
  leastPositional : Int
  firstExponential : Int
  exponentDigits : Nat
deriving Repr, DecidableEq

/-- The layout of numbers: positional from `10 ^ -4` up to below `10 ^ 16`, and at least two digits
in an exponent. -/
def DecimalFormat.standard : DecimalFormat := ⟨-4, 16, 2⟩

/-- The text of a positive decimal in a layout; a positional text shows at least one digit behind
the point. -/
def Decimal.text (format : DecimalFormat) (decimal : Decimal) : String :=
  let ds := Nat.toDigits 10 decimal.digits
  let lead := decimal.power + ds.length - 1
  if lead < format.leastPositional ∨ format.firstExponential ≤ lead then
    let fraction := match ds.drop 1 with
      | [] => []
      | rest => '.' :: rest
    let size := Nat.toDigits 10 lead.natAbs
    let padding := List.replicate (format.exponentDigits - size.length) '0'
    String.ofList (ds.take 1 ++ fraction ++ ['e', if lead < 0 then '-' else '+'] ++ padding ++ size)
  else if lead < 0 then
    String.ofList ("0.".toList ++ List.replicate (lead.natAbs - 1) '0' ++ ds)
  else
    let whole := lead.toNat + 1
    if ds.length ≤ whole then
      String.ofList (ds ++ List.replicate (whole - ds.length) '0' ++ ".0".toList)
    else
      String.ofList (ds.take whole ++ '.' :: ds.drop whole)

namespace Binary64

/-- The text of a number. -/
def text : Binary64 → String
  | .nan => "nan"
  | .inf s => if s then "-inf" else "inf"
  | .finite s m e =>
    let sign := if s then "-" else ""
    if m = 0 then sign ++ "0.0" else sign ++ (shortest m e).text .standard

/-! ## Reading -/

/-- The digits at the front of a text, with single underscores allowed between them, and the
rest. -/
def spanNumeral (s : List Char) : List Char × List Char :=
  s.span fun c => (Text.digitValue? c).isSome || c == '_'

/-- The digits of an optional numeral: none at all, or a numeral in which every underscore stands
between two digits. -/
def optionalDigits? (s : List Char) : Option (List Nat) :=
  if s.isEmpty then some [] else Text.digits? s

/-- The exponent of a numeral: nothing, or the mark `e` and a signed numeral. -/
def exponent? : List Char → Option Int
  | [] => some 0
  | c :: rest =>
    if c = 'e' ∨ c = 'E' then
      match rest with
      | '-' :: ds => (Text.digits? ds).map fun v => -(Text.valueOfDigits 10 v : Int)
      | '+' :: ds => (Text.digits? ds).map fun v => (Text.valueOfDigits 10 v : Int)
      | ds => (Text.digits? ds).map fun v => (Text.valueOfDigits 10 v : Int)
    else none

/-- The number of an unsigned decimal numeral. -/
def unsignedDecimal? (negative : Bool) (s : List Char) : Option Binary64 :=
  let (whole, rest) := spanNumeral s
  let (fraction, rest) := match rest with
    | '.' :: behind => spanNumeral behind
    | _ => ([], rest)
  match optionalDigits? whole, optionalDigits? fraction, exponent? rest with
  | some ws, some fs, some e =>
    if ws.isEmpty && fs.isEmpty then none
    else some (ofDecimal negative (Text.valueOfDigits 10 (ws ++ fs)) (e - fs.length))
  | _, _, _ => none

/-- The number of an unsigned numeral or of one of the words for infinity and `nan`. -/
def unsigned? (negative : Bool) (s : List Char) : Option Binary64 :=
  let word := String.ofList (s.map Char.toLower)
  if word = "inf" ∨ word = "infinity" then some (.inf negative)
  else if word = "nan" then some .nan
  else unsignedDecimal? negative s

/-- The number that a text writes. -/
def ofText? (s : List Char) : Option Binary64 :=
  match Text.dropEndWhile Text.isNumeralBlank (s.dropWhile Text.isNumeralBlank) with
  | '-' :: body => unsigned? true body
  | '+' :: body => unsigned? false body
  | body => unsigned? false body

end Binary64

end TypedClient

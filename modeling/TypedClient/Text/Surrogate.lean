/-!
# Surrogate pairs

Escapes of four hexadecimal digits name code units.  Characters that need more digits are written as
two units, the halves of a surrogate pair.  A text is a sequence of characters and holds no half of
a pair, so an escape for half a pair on its own reads as the replacement character.  Every text that
is read can therefore be written.

* `ofHalves`: the character of a pair.
* `ofCodeUnits`: the characters of a sequence of units.
-/

namespace TypedClient.Text

/-- Is the code unit the first half of a surrogate pair? -/
def isHighHalf (n : Nat) : Bool := 0xd800 ≤ n && n ≤ 0xdbff

/-- Is the code unit the second half of a surrogate pair? -/
def isLowHalf (n : Nat) : Bool := 0xdc00 ≤ n && n ≤ 0xdfff

/-- The character of a surrogate pair. -/
def ofHalves (high low : Nat) : Char :=
  Char.ofNat (0x10000 + (high - 0xd800) * 0x400 + (low - 0xdc00))

/-- The character of a code unit; half a surrogate pair on its own is the replacement character. -/
def ofCodeUnit (n : Nat) : Char :=
  if isHighHalf n || isLowHalf n then '\ufffd' else Char.ofNat n

/-- The characters of a sequence of code units. -/
def ofCodeUnits : List Nat → List Char
  | [] => []
  | [n] => [ofCodeUnit n]
  | high :: low :: rest =>
    if isHighHalf high && isLowHalf low then ofHalves high low :: ofCodeUnits rest
    else ofCodeUnit high :: ofCodeUnits (low :: rest)

end TypedClient.Text

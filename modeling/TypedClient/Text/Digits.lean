import TypedClient.Text.Blank

/-!
# Digits and whole numbers

Decimal digits of every script, and the whole numbers written with them.

* `digitValue?`: the value of a decimal digit; `hexDigit?`: the value of a hexadecimal one.
* `digits?`: the digits of a numeral in which a single underscore may stand between two digits.
* `readInteger?`: a whole number with an optional sign and white space around it.  A numeral of
  more than `numeralLimit` digits is refused.
* `toString_inj`: a whole number is known by its decimal numeral.
-/

namespace TypedClient.Text

/-- The zeros of all scripts; the digits one to nine follow each. -/
def zeros : List Nat :=
  [0x30, 0x660, 0x6f0, 0x7c0, 0x966, 0x9e6, 0xa66, 0xae6, 0xb66, 0xbe6,
    0xc66, 0xce6, 0xd66, 0xde6, 0xe50, 0xed0, 0xf20, 0x1040, 0x1090, 0x17e0,
    0x1810, 0x1946, 0x19d0, 0x1a80, 0x1a90, 0x1b50, 0x1bb0, 0x1c40, 0x1c50, 0xa620,
    0xa8d0, 0xa900, 0xa9d0, 0xa9f0, 0xaa50, 0xabf0, 0xff10, 0x104a0, 0x10d30, 0x11066,
    0x110f0, 0x11136, 0x111d0, 0x112f0, 0x11450, 0x114d0, 0x11650, 0x116c0, 0x11730, 0x118e0,
    0x11950, 0x11c50, 0x11d50, 0x11da0, 0x16a60, 0x16ac0, 0x16b50, 0x1d7ce, 0x1d7d8, 0x1d7e2,
    0x1d7ec, 0x1d7f6, 0x1e140, 0x1e2f0, 0x1e950, 0x1fbf0]

/-- The value of a decimal digit of any script. -/
def digitValue? (c : Char) : Option Nat :=
  if c.toNat < 128 then
    if 48 ≤ c.toNat ∧ c.toNat ≤ 57 then some (c.toNat - 48) else none
  else
    (zeros.find? fun z => z ≤ c.toNat && c.toNat ≤ z + 9).map fun z => c.toNat - z

/-- The value of a hexadecimal digit. -/
def hexDigit? (c : Char) : Option Nat :=
  if '0' ≤ c ∧ c ≤ '9' then some (c.toNat - 48)
  else if 'a' ≤ c ∧ c ≤ 'f' then some (c.toNat - 87)
  else if 'A' ≤ c ∧ c ≤ 'F' then some (c.toNat - 55)
  else none

/-- The value that digits name in a base, the first digit being the highest. -/
def valueOfDigits (base : Nat) (digits : List Nat) : Nat :=
  digits.foldl (fun value digit => value * base + digit) 0

/-- A numeral of more digits than this is not read. -/
def numeralLimit : Nat := 4300

/-- The digit values of a numeral, or nothing if anything but a digit or a single underscore
between two digits stands in it.  `afterDigit` says whether the last character was a digit. -/
def digitsFrom? (afterDigit : Bool) : List Char → Option (List Nat)
  | [] => if afterDigit then some [] else none
  | c :: rest =>
    if c = '_' then
      if afterDigit then digitsFrom? false rest else none
    else
      match digitValue? c with
      | some d => (digitsFrom? true rest).map (d :: ·)
      | none => none

/-- The digit values of a nonempty numeral. -/
def digits? (s : List Char) : Option (List Nat) :=
  digitsFrom? false s

/-- White space that may surround a whole number: all of it but the ASCII separators. -/
def isNumeralBlank (c : Char) : Bool :=
  isBlank c && !(28 ≤ c.toNat && c.toNat ≤ 31)

/-- A numeral with an optional sign. -/
def readSigned? (s : List Char) : Option Int :=
  let read (body : List Char) : Option Nat :=
    (digits? body).bind fun ds =>
      if ds.length ≤ numeralLimit then some (valueOfDigits 10 ds) else none
  match s with
  | '-' :: body => (read body).map fun n => -(n : Int)
  | '+' :: body => (read body).map fun n => (n : Int)
  | body => (read body).map fun n => (n : Int)

/-- The whole number that a text writes, white space around it allowed. -/
def readInteger? (s : List Char) : Option Int :=
  readSigned? (dropEndWhile isNumeralBlank (s.dropWhile isNumeralBlank))

theorem toString_inj {i j : Nat} : toString i = toString j ↔ i = j := by
  refine ⟨fun h => ?_, congrArg toString⟩
  have hvalue := congrArg (fun s => Nat.ofDigitChars 10 s.toList 0) h
  simpa only [Nat.toString_eq_ofList_toDigits, String.toList_ofList,
    Nat.ofDigitChars_ten_toDigits] using hvalue

end TypedClient.Text

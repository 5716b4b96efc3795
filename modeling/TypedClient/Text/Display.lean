import TypedClient.Text.Printable

/-!
# Texts displayed in quotes

A text inside a displayed value stands in single quotes, or in double quotes if it holds single
quotes and no double ones.  The quote, the backslash and every character that is not printable are
escaped.

* `displayQuoted`: a text in quotes.
* `displayBytes`: a sequence of bytes in quotes, with everything outside ASCII escaped.
-/

namespace TypedClient.Text

/-- A number in lower-case hexadecimal with zeros in front up to a width. -/
def hexPadded (width n : Nat) : List Char :=
  let ds := Nat.toDigits 16 n
  List.replicate (width - ds.length) '0' ++ ds

/-- The quote for a text: the double one only if single quotes alone occur in the text. -/
def quoteFor (hasSingle hasDouble : Bool) : Char :=
  if hasSingle && !hasDouble then '"' else '\''

/-- A character as it is displayed between quotes. -/
def displayChar (quote c : Char) : List Char :=
  if c = quote ∨ c = '\\' then ['\\', c]
  else if c = '\n' then ['\\', 'n']
  else if c = '\r' then ['\\', 'r']
  else if c = '\t' then ['\\', 't']
  else if isPrintable c then [c]
  else if c.toNat < 0x100 then '\\' :: 'x' :: hexPadded 2 c.toNat
  else if c.toNat < 0x10000 then '\\' :: 'u' :: hexPadded 4 c.toNat
  else '\\' :: 'U' :: hexPadded 8 c.toNat

/-- A text in quotes. -/
def displayQuoted (s : List Char) : List Char :=
  let quote := quoteFor (s.contains '\'') (s.contains '"')
  quote :: s.flatMap (displayChar quote) ++ [quote]

/-- A byte as it is displayed between quotes. -/
def displayByte (quote : Char) (b : UInt8) : List Char :=
  let c := Char.ofNat b.toNat
  if b.toNat < 127 then displayChar quote c else '\\' :: 'x' :: hexPadded 2 b.toNat

/-- Bytes in quotes, with a mark in front. -/
def displayBytes (data : List UInt8) : List Char :=
  let quote := quoteFor (data.contains 39) (data.contains 34)
  'b' :: quote :: data.flatMap (displayByte quote) ++ [quote]

end TypedClient.Text

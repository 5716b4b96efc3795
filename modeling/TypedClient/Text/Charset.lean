import TypedClient.Text.Encoding

/-!
# Charsets

A text that comes from elsewhere may be written in another charset than UTF-8, and is often read as
UTF-8 first.

* `Charset.ofName?`: the charset with a name.
* `Charset.reread`: a text whose bytes are read in a charset.
-/

namespace TypedClient.Text

/-- The charsets. -/
inductive Charset where
  | utf8
  | latin1
  | ascii
deriving Repr, DecidableEq

namespace Charset

/-- The names of charsets other than UTF-8, in small letters. -/
def names : List (String × Charset) :=
  [("iso-8859-1", .latin1), ("iso_8859-1", .latin1), ("iso8859-1", .latin1), ("latin-1", .latin1),
    ("latin1", .latin1), ("l1", .latin1), ("us-ascii", .ascii), ("ascii", .ascii)]

/-- The charset with a name in small letters. -/
def ofName? (name : String) : Option Charset :=
  if name = "utf-8" || name = "utf8" then some .utf8 else names.lookup name

/-- The character of a byte, in a charset that has one for each byte.  Where a charset has none, the
replacement character stands for it. -/
def charOf (charset : Charset) (b : UInt8) : Char :=
  if charset = .ascii && 128 ≤ b.toNat then '\ufffd' else Char.ofNat b.toNat

/-- The text whose bytes in UTF-8 are given, when they are read in a charset. -/
def reread (charset : Charset) (s : String) : String :=
  match charset with
  | .utf8 => s
  | _ => String.ofList ((encode s).toList.map charset.charOf)

end Charset

end TypedClient.Text

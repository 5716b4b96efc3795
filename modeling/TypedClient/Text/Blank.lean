/-!
# White space

* `isBlank`: the white space of all scripts, the separators of the information hierarchy
  (`U+001C` to `U+001F`) and the next-line character included.
* `trim`: a text without the white space at its two ends.
* `isAllBlank`: holds of texts in which nothing else stands.
-/

namespace TypedClient.Text

/-- White space outside ASCII. -/
def wideBlanks : List Nat :=
  [0x85, 0xa0, 0x1680, 0x2000, 0x2001, 0x2002, 0x2003, 0x2004, 0x2005, 0x2006, 0x2007, 0x2008,
    0x2009, 0x200a, 0x2028, 0x2029, 0x202f, 0x205f, 0x3000]

/-- Is the character white space? -/
def isBlank (c : Char) : Bool :=
  c.toNat == 32 || (9 ≤ c.toNat && c.toNat ≤ 13) || (28 ≤ c.toNat && c.toNat ≤ 31) ||
    wideBlanks.contains c.toNat

/-- The text without the characters of a class at its end. -/
def dropEndWhile (p : Char → Bool) (s : List Char) : List Char :=
  (s.reverse.dropWhile p).reverse

/-- The text without white space at its ends. -/
def trim (s : List Char) : List Char :=
  dropEndWhile isBlank (s.dropWhile isBlank)

/-- Does the text hold white space only? -/
def isAllBlank (s : List Char) : Bool :=
  s.all isBlank

end TypedClient.Text

import TypedClient.Text.Case

/-!
# Comparison without case

Two letters are the same when case is ignored if their one-letter lower-case forms agree or are
listed as companions.  A character without case matches itself alone.

* `sameFolded`: the comparison of a pattern's character with a character of the text.
* `dropFolded?`: takes a pattern off the front of a text.
* `eraseFolded`: removes every occurrence of a pattern together with one underscore behind it.
-/

namespace TypedClient.Text

/-- Does the character have another form in the other case? -/
def isCased (c : Char) : Bool :=
  upperChar c != [c] || lowerForm c != c

/-- Does the pattern's character `p` match the character `c` when case is ignored? -/
def sameFolded (p c : Char) : Bool :=
  if isCased p then
    let low := lowerForm p
    lowerForm c == low ||
      ((foldCompanions.lookup low.toNat).getD []).contains (lowerForm c).toNat
  else
    c == p

/-- What follows the pattern at the front of the text, if the pattern stands there. -/
def dropFolded? : (pattern text : List Char) → Option (List Char)
  | [], text => some text
  | _ :: _, [] => none
  | p :: pattern, c :: text => if sameFolded p c then dropFolded? pattern text else none

/-- What is left is no longer than the text. -/
theorem dropFolded?_length {pattern text rest : List Char}
    (h : dropFolded? pattern text = some rest) :
    rest.length + pattern.length = text.length := by
  induction pattern generalizing text with
  | nil => simp_all [dropFolded?]
  | cons p pattern ih =>
    cases text with
    | nil => simp [dropFolded?] at h
    | cons c text =>
      simp only [dropFolded?] at h
      split at h
      · have := ih h
        simp only [List.length_cons]
        omega
      · simp at h

/-- The text without one underscore at its front. -/
def dropUnderscore : List Char → List Char
  | '_' :: rest => rest
  | text => text

theorem dropUnderscore_length (text : List Char) :
    (dropUnderscore text).length ≤ text.length := by
  unfold dropUnderscore
  split <;> simp

/-- Removes, from left to right, every occurrence of the pattern and one underscore behind each.
An empty pattern removes nothing. -/
def eraseFolded (pattern : List Char) : List Char → List Char
  | [] => []
  | c :: text =>
    if pattern.isEmpty then c :: text
    else
      match _h : dropFolded? pattern (c :: text) with
      | some rest => eraseFolded pattern (dropUnderscore rest)
      | none => c :: eraseFolded pattern text
termination_by text => text.length
decreasing_by
  · rename_i hne
    have hlen := dropFolded?_length _h
    have hle := dropUnderscore_length rest
    have hpos : pattern.length ≠ 0 := fun h0 => hne (by simp [List.length_eq_zero_iff.mp h0])
    simp only [List.length_cons] at hlen ⊢
    omega
  · simp

end TypedClient.Text

import TypedClient.Text.CaseTable

/-!
# Upper and lower case

The case mappings of all letters, character by character.  An upper-case form may be longer than
the letter it comes from (`ß` becomes `SS`), so both mappings answer a list of characters.

* `upper`, `lower`: the mappings of a text.
* `lowerForm`: the one-letter lower-case form, which is what comparison without case uses.
* `upperChar_ascii`, `lowerChar_ascii`: inside ASCII both are the plain mappings.

A capital sigma becomes `σ` wherever it stands.
-/

namespace TypedClient.Text

/-- The code point a table sends `n` to; a code point in no run stays. -/
def movedBy (runs : List CaseRun) (n : Nat) : Nat :=
  (runs.findSome? fun run => run.move? n).getD n

/-- The upper-case form of a character. -/
def upperChar (c : Char) : List Char :=
  if c.toNat < 128 then [c.toUpper]
  else
    match upperExpansions.lookup c.toNat with
    | some codes => codes.map Char.ofNat
    | none => [Char.ofNat (movedBy upperRuns c.toNat)]

/-- The lower-case form of a character as one letter. -/
def lowerForm (c : Char) : Char :=
  if c.toNat < 128 then c.toLower else Char.ofNat (movedBy lowerRuns c.toNat)

/-- The lower-case form of a character; the dotted capital I keeps its dot as a mark of its own. -/
def lowerChar (c : Char) : List Char :=
  if c = 'İ' then ['i', '\u0307'] else [lowerForm c]

/-- The upper-case form of a text. -/
def upper (s : List Char) : List Char :=
  s.flatMap upperChar

/-- The lower-case form of a text. -/
def lower (s : List Char) : List Char :=
  s.flatMap lowerChar

@[simp] theorem lower_nil : lower [] = [] := rfl

@[simp] theorem lower_cons (c : Char) (s : List Char) : lower (c :: s) = lowerChar c ++ lower s :=
  rfl

/-- Inside ASCII the upper-case form is one letter. -/
theorem upperChar_ascii {c : Char} (h : c.toNat < 128) : upperChar c = [c.toUpper] := by
  simp [upperChar, h]

/-- Inside ASCII the lower-case form is one letter. -/
theorem lowerChar_ascii {c : Char} (h : c.toNat < 128) : lowerChar c = [c.toLower] := by
  have hne : c ≠ 'İ' := by
    rintro rfl
    exact absurd h (by decide)
  simp [lowerChar, lowerForm, h, hne]

end TypedClient.Text

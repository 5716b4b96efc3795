import TypedClient.Naming

/-!
# Names of tags begin with no small letter

The name of a tag is in pascal case: its first character is the first of an upper-case form, and
making it safe replaces it by an underscore, if anything.  So it is none of `a` to `z`, and the name
of a tag is no word that begins with one of them.

* `Text.IsSmall`: the small letters of ASCII.
* `Text.upperChar_eq_cons`: an upper-case form begins with none of them.
* `Naming.not_isSmall_tagName`: nor does the name of a tag.
-/

namespace TypedClient

namespace Text

/-- Is the character a small letter of ASCII? -/
def IsSmall (c : Char) : Prop := 97 ≤ c.toNat ∧ c.toNat ≤ 122

instance (c : Char) : Decidable (IsSmall c) := inferInstanceAs (Decidable (_ ∧ _))

theorem not_isSmall_toUpper {c : Char} (h : c.toNat < 128) : ¬ IsSmall c.toUpper := by
  have hall : ∀ n : Fin 128, ¬ IsSmall (Char.ofNat n).toUpper := by decide
  have hc := hall ⟨c.toNat, h⟩
  rw [Char.ofNat_toNat] at hc
  exact hc

/-- No run of the table leads from outside ASCII to a small letter. -/
theorem movedBy_upperRuns {n : Nat} (h : 128 ≤ n) :
    ¬ (97 ≤ movedBy upperRuns n ∧ movedBy upperRuns n ≤ 122) := by
  have hruns : ∀ run ∈ upperRuns, 122 < run.first + run.shift ∨ run.last + run.shift < 97 := by
    decide +kernel
  rw [movedBy]
  cases hfind : upperRuns.findSome? fun run => run.move? n with
  | none =>
    rw [Option.getD_none]
    omega
  | some m =>
    obtain ⟨run, hrun, hmove⟩ := List.exists_of_findSome?_eq_some hfind
    rw [CaseRun.move?] at hmove
    split at hmove
    · rename_i hn
      have hm := Option.some_inj.mp hmove
      have hends := hruns run hrun
      rw [Option.getD_some]
      omega
    · cases hmove

theorem not_isSmall_ofNat {n : Nat} (h : ¬ (97 ≤ n ∧ n ≤ 122)) : ¬ IsSmall (Char.ofNat n) := by
  by_cases hvalid : n.isValidChar
  · rw [Char.ofNat, dif_pos hvalid]
    exact h
  · -- what is no code point gives the null character
    rw [Char.ofNat, dif_neg hvalid]
    decide

/-- An upper-case form begins with no small letter. -/
theorem upperChar_eq_cons (c : Char) : ∃ d rest, upperChar c = d :: rest ∧ ¬ IsSmall d := by
  have hcodes : ∀ entry ∈ upperExpansions, entry.2 ≠ [] ∧
      ∀ n ∈ entry.2.head?, ¬ (97 ≤ n ∧ n ≤ 122) := by
    decide +kernel
  by_cases hascii : c.toNat < 128
  · exact ⟨c.toUpper, [], upperChar_ascii hascii, not_isSmall_toUpper hascii⟩
  · rw [upperChar, if_neg hascii]
    cases hlookup : upperExpansions.lookup c.toNat with
    | none => exact ⟨_, [], rfl, not_isSmall_ofNat (movedBy_upperRuns (by omega))⟩
    | some codes =>
      obtain ⟨before, after, hentries, -⟩ := List.lookup_eq_some_iff.mp hlookup
      have hmem : (c.toNat, codes) ∈ upperExpansions := by
        rw [hentries]
        exact List.mem_append_right _ List.mem_cons_self
      obtain ⟨hne, hhead⟩ := hcodes _ hmem
      cases codes with
      | nil => exact absurd rfl hne
      | cons n rest => exact ⟨Char.ofNat n, _, rfl, not_isSmall_ofNat (hhead n rfl)⟩

end Text

namespace Identifier

theorem guardDigit_eq_cons (c : Char) (rest : List Char) :
    ∃ d more, guardDigit (c :: rest) = d :: more ∧ (d = '_' ∨ d = c) := by
  rw [guardDigit]
  split
  · exact ⟨_, _, rfl, Or.inl rfl⟩
  · exact ⟨_, _, rfl, Or.inr rfl⟩

theorem head?_guardReserved (c : Char) (rest : List Char) :
    (guardReserved (String.ofList (c :: rest))).toList.head? = some c := by
  rw [guardReserved]
  split
  · rw [String.toList_append, String.toList_ofList]
    rfl
  · rw [String.toList_ofList]
    rfl

/-- Making a name safe replaces its first character by an underscore, if anything. -/
theorem eq_of_mem_head?_sanitize {s : String} {c : Char} (h : c ∈ (sanitize s).toList.head?) :
    c = '_' ∨ c ∈ s.toList.head? := by
  rw [sanitize] at h
  cases hs : s.toList with
  | nil =>
    rw [hs] at h
    exact Or.inl (Option.mem_some.mp h).symm
  | cons d rest =>
    obtain ⟨e, more, hguard, he⟩ := guardDigit_eq_cons (cleanChar d) (rest.map cleanChar)
    rw [hs] at h
    change c ∈ (guardReserved (String.ofList (guardDigit
      (cleanChar d :: rest.map cleanChar)))).toList.head? at h
    rw [hguard, head?_guardReserved, Option.mem_some] at h
    subst h
    rcases he with rfl | rfl
    · exact Or.inl rfl
    · rw [cleanChar]
      split
      · exact Or.inr rfl
      · exact Or.inl rfl

end Identifier

namespace Naming

/-- The name of a tag begins with no small letter. -/
theorem not_isSmall_tagName {tag : String} {c : Char} (h : c ∈ (tagName tag).toList.head?) :
    ¬ Text.IsSmall c := by
  rcases Identifier.eq_of_mem_head?_sanitize h with rfl | h
  · decide
  · rw [pascalCase, String.toList_ofList] at h
    cases hcamel : (camelCase tag).toList with
    | nil =>
      rw [hcamel] at h
      cases h
    | cons d rest =>
      obtain ⟨e, more, hupper, hsmall⟩ := Text.upperChar_eq_cons d
      rw [hcamel, upperFirst, hupper] at h
      rw [← Option.mem_some.mp h]
      exact hsmall

end Naming

end TypedClient

import TypedClient.Loading.Document
import TypedClient.Proofs.Script.Numeral

/-!
# The numbers of a version

Which versions are read is decided by how their texts begin.  A text that begins with `3.` has the
major number 3, so all versions with another one are refused.  Whether a version is newer than those
that are known is told from the beginnings `3.0.` and `3.1.`, for which the minor number must have
one digit and a patch must stand behind it.  So a version is said to be newer without being so if it
has no patch, or zeros in front of its minor number.

* `IsNumeral`, `IsThird`, `HasMajor`: the texts of versions, and their numbers.
* `checkVersion_of_isThird`: what is made of a version with the major number 3.
* `exists_error_of_hasMajor`: versions with another one are refused.
* `ComparesNumbers`: a version is judged by its numbers.
* `comparesNumbers_iff`: when it is.
* `not_comparesNumbers_without_patch`: it is not always.
-/

namespace TypedClient.Loading

open Script (IsDigits natOf)

variable {document : Value} {version : String} {minor behind : List Char} {d : Char}

/-! ## Versions -/

/-- A decimal numeral; zeros may stand in front of it. -/
structure IsNumeral (ds : List Char) : Prop where
  ne_nil : ds ≠ []
  digits : IsDigits ds

/-- What may stand behind the minor number: nothing, or a point and the patch. -/
inductive IsPatch : List Char → Prop
  | missing : IsPatch []
  | given {patch : List Char} (hpatch : IsNumeral patch) : IsPatch ('.' :: patch)

/-- The text of a version with the major number 3, cut behind its minor number. -/
structure IsThird (version : String) (minor behind : List Char) : Prop where
  toList_eq : version.toList = '3' :: '.' :: (minor ++ behind)
  minor : IsNumeral minor
  behind : IsPatch behind

/-- The version begins with a numeral for the number, which is all of it or ends with a point. -/
def HasMajor (version : String) (n : ℕ) : Prop :=
  ∃ major behind, version.toList = major ++ behind ∧ IsNumeral major ∧ natOf major = n ∧
    (behind = [] ∨ behind.head? = some '.')

/-- The version that a document gives. -/
def versionOf (document : Value) : String := (document.getD "openapi").display

/-! ## How versions begin -/

theorem startsWith_iff {start version : String} :
    startsWith start version = true ↔ start.toList <+: version.toList := by
  rw [startsWith, List.isPrefixOf_iff_prefix]

/-- A digit with a point behind it begins a numeral only if it is all of it. -/
theorem digit_point_prefix_iff (hminor : IsNumeral minor) (hbehind : IsPatch behind) :
    [d, '.'] <+: minor ++ behind ↔ minor = [d] ∧ behind ≠ [] := by
  obtain ⟨c, more, rfl⟩ := List.exists_cons_of_ne_nil hminor.ne_nil
  rw [List.cons_append, List.cons_prefix_cons]
  cases more with
  | nil =>
    rw [List.nil_append]
    have hpoint : ['.'] <+: behind ↔ behind ≠ [] := by
      cases hbehind with
      | missing => simp
      | given => simp [List.cons_prefix_cons]
    rw [hpoint, List.cons.injEq, and_iff_left rfl, eq_comm]
  | cons e more =>
    have he : e ≠ '.' := by
      rintro rfl
      exact absurd (hminor.digits '.' (by simp)) (by decide)
    rw [List.cons_append, List.cons_prefix_cons]
    refine iff_of_false (fun h => he h.2.1.symm) (fun h => ?_)
    exact List.cons_ne_nil _ _ (List.cons.inj h.1).2

/-- The known versions are those with a patch and the minor number 0 or 1, written as one digit. -/
theorem isKnown_iff (h : IsThird version minor behind) :
    isKnown version = true ↔ behind ≠ [] ∧ (minor = ['0'] ∨ minor = ['1']) := by
  have hbegins : ∀ d, ['3', '.', d, '.'] <+: version.toList ↔ minor = [d] ∧ behind ≠ [] := by
    intro d
    rw [h.toList_eq, List.cons_prefix_cons, List.cons_prefix_cons,
      digit_point_prefix_iff h.minor h.behind]
    simp
  have hzero : startsWith "3.0." version = true ↔ minor = ['0'] ∧ behind ≠ [] :=
    startsWith_iff.trans (hbegins '0')
  have hone : startsWith "3.1." version = true ↔ minor = ['1'] ∧ behind ≠ [] :=
    startsWith_iff.trans (hbegins '1')
  rw [isKnown, Bool.or_eq_true, hzero, hone, ← or_and_right, and_comm]

theorem startsWith_of_isThird (h : IsThird version minor behind) :
    startsWith "3." version = true := by
  refine startsWith_iff.mpr ?_
  rw [h.toList_eq]
  exact ⟨minor ++ behind, rfl⟩

/-- A version that begins with `3.` has no other major number. -/
theorem HasMajor.eq_three {n : ℕ} (h : HasMajor version n)
    (hstart : startsWith "3." version = true) : n = 3 := by
  obtain ⟨major, behind, htext, hmajor, rfl, -⟩ := h
  obtain ⟨rest, hrest⟩ := startsWith_iff.mp hstart
  obtain ⟨c, more, rfl⟩ := List.exists_cons_of_ne_nil hmajor.ne_nil
  have heq : '3' :: '.' :: rest = c :: (more ++ behind) := hrest.trans htext
  obtain ⟨rfl, hpoint⟩ := List.cons.inj heq
  cases more with
  | nil => decide
  | cons e more =>
    obtain ⟨rfl, -⟩ := List.cons.inj hpoint
    exact absurd (hmajor.digits '.' (by simp)) (by decide)

/-! ## What is made of versions -/

/-- Without a version for another format and with a version at all, the text decides. -/
theorem checkVersion_of_ne_null (hswagger : document.get? "swagger" = none)
    (hnull : document.getD "openapi" ≠ .null) :
    checkVersion document =
      if startsWith "3." (versionOf document) then
        .ok (versionOf document,
          if isKnown (versionOf document) then [] else [newerWarning (versionOf document)])
      else .error (.unsupported (versionOf document)) := by
  rw [checkVersion, hswagger]
  dsimp only
  split
  · rename_i h
    exact absurd h hnull
  · rfl

theorem ne_null_of_isThird (h : IsThird (versionOf document) minor behind) :
    document.getD "openapi" ≠ .null := by
  intro hnull
  have hhead : (versionOf document).toList.head? = some '3' := by
    rw [h.toList_eq]
    rfl
  rw [versionOf, hnull] at hhead
  exact absurd hhead (by decide)

/-- A version with the major number 3 is read, without a warning only if it is a known one. -/
theorem checkVersion_of_isThird (hswagger : document.get? "swagger" = none)
    (h : IsThird (versionOf document) minor behind) :
    checkVersion document = .ok (versionOf document,
      if behind ≠ [] ∧ (minor = ['0'] ∨ minor = ['1']) then []
      else [newerWarning (versionOf document)]) := by
  rw [checkVersion_of_ne_null hswagger (ne_null_of_isThird h), if_pos (startsWith_of_isThird h),
    if_congr (isKnown_iff h) rfl rfl]

/-- A document whose version has another major number is refused. -/
theorem exists_error_of_hasMajor {n : ℕ} (h : HasMajor (versionOf document) n) (hn : n ≠ 3) :
    ∃ error, checkVersion document = .error error := by
  cases hswagger : document.get? "swagger" with
  | some v => exact ⟨.swagger v.display, by rw [checkVersion, hswagger]⟩
  | none =>
    by_cases hnull : document.getD "openapi" = .null
    · exact ⟨.missing, by rw [checkVersion, hswagger, hnull]⟩
    · refine ⟨.unsupported (versionOf document), ?_⟩
      rw [checkVersion_of_ne_null hswagger hnull, if_neg fun hstart => hn (h.eq_three hstart)]

/-! ## Numbers and texts -/

/-- The version of a document is judged by its numbers: with the major number 3 it is read, and
warned of exactly if its minor number is more than 1; with another major number it is refused as a
document that cannot be read. -/
structure ComparesNumbers (document : Value) : Prop where
  reads : ∀ minor behind, document.get? "swagger" = none →
    IsThird (versionOf document) minor behind →
      checkVersion document = .ok (versionOf document,
        if 1 < natOf minor then [newerWarning (versionOf document)] else [])
  refuses : ∀ n, HasMajor (versionOf document) n → n ≠ 3 →
    ∃ error, checkVersion document = .error error ∧ (LoadError.version error).problem.kind = .parse

/-- Versions are judged by their numbers exactly if those that are not newer than the known ones
have a patch and a minor number of one digit.  Those with the major number 3 are read in any case,
and those with another one are refused in any case. -/
theorem comparesNumbers_iff (document : Value) :
    (ComparesNumbers document ↔ ∀ minor behind, document.get? "swagger" = none →
      IsThird (versionOf document) minor behind →
        1 < natOf minor ∨ behind ≠ [] ∧ (minor = ['0'] ∨ minor = ['1'])) ∧
    (∀ minor behind, document.get? "swagger" = none →
      IsThird (versionOf document) minor behind →
        checkVersion document = .ok (versionOf document,
          if behind ≠ [] ∧ (minor = ['0'] ∨ minor = ['1']) then []
          else [newerWarning (versionOf document)])) ∧
    ∀ n, HasMajor (versionOf document) n → n ≠ 3 →
      ∃ error, checkVersion document = .error error ∧
        (LoadError.version error).problem.kind = .parse := by
  have hrefuses : ∀ n, HasMajor (versionOf document) n → n ≠ 3 →
      ∃ error, checkVersion document = .error error ∧
        (LoadError.version error).problem.kind = .parse := by
    intro n h hn
    obtain ⟨error, herror⟩ := exists_error_of_hasMajor h hn
    exact ⟨error, herror, rfl⟩
  refine ⟨⟨fun h minor behind hswagger hthird => ?_, fun h => ⟨?_, hrefuses⟩⟩,
    fun minor behind => checkVersion_of_isThird, hrefuses⟩
  · by_contra hnot
    rw [not_or] at hnot
    have hreads := h.reads minor behind hswagger hthird
    rw [checkVersion_of_isThird hswagger hthird, if_neg hnot.1, if_neg hnot.2] at hreads
    cases hreads
  · intro minor behind hswagger hthird
    rw [checkVersion_of_isThird hswagger hthird]
    rcases h minor behind hswagger hthird with hnewer | hknown
    · have hnotKnown : ¬ (behind ≠ [] ∧ (minor = ['0'] ∨ minor = ['1'])) := by
        rintro ⟨-, rfl | rfl⟩
        · exact absurd hnewer (by decide)
        · exact absurd hnewer (by decide)
      rw [if_neg hnotKnown, if_pos hnewer]
    · have hnotNewer : ¬ 1 < natOf minor := by
        rcases hknown.2 with rfl | rfl <;> decide
      rw [if_pos hknown, if_neg hnotNewer]

/-- A version without a patch is said to be newer than itself. -/
theorem not_comparesNumbers_without_patch :
    ¬ ComparesNumbers (.map [(.text "openapi", .text "3.1")]) := by
  intro h
  have hone : IsNumeral ['1'] := ⟨List.cons_ne_nil _ _, by simp [IsDigits]⟩
  have hreads := h.reads ['1'] [] rfl ⟨by decide, hone, .missing⟩
  exact absurd hreads (by decide +kernel)

end TypedClient.Loading

import Mathlib.Data.List.Infix
import TypedClient.Text.Blank
import TypedClient.Text.Lines
import TypedClient.Text.Segments

/-!
# Parts of texts

What cutting, joining, trimming and replacing do to the parts of a text.  A text that is cut into
lines, or trimmed, has no parts that it did not have before.  A character that a part does not hold
separates two texts: the part stands in the whole only if it stands in one of them.

* `segments_joinWith_eq_flatMap`, `segments_joinWith`: cutting a text that was joined from others.
* `infix_of_mem_lines`, `infix_trim`: lines and trimmed texts are parts.
* `infix_joinWith`: the texts that are joined are parts of the whole.
* `infix_append_cons_iff`, `infix_flatMap_append_iff`: parts of two texts with a separator between
  them, and of texts that each end with it.
* `not_infix_replaceAll`: a pair that is replaced by itself with a gap in it does not occur any more.
* `replaceAll_eq_self`: a text in which nothing is replaced.
-/

namespace TypedClient.Text

variable {c d e g sep : Char} {s t part line : List Char}

/-! ## Replacing -/

theorem replaceAll_pair_hit (c d : Char) (r s : List Char) :
    replaceAll [c, d] r (c :: d :: s) = r ++ replaceAll [c, d] r s := by
  simp [replaceAll, replaceFrom]

theorem replaceAll_pair_of_ne (h : c ≠ e) (r s : List Char) :
    replaceAll [e, d] r (c :: s) = c :: replaceAll [e, d] r s := by
  simp [replaceAll, replaceFrom, h.symm]

theorem replaceAll_pair_of_second_ne (h : c ≠ d) (r s : List Char) :
    replaceAll [e, d] r (e :: c :: s) = e :: replaceAll [e, d] r (c :: s) := by
  simp [replaceAll, replaceFrom, h.symm]

theorem replaceAll_singleton (c : Char) (r s : List Char) :
    replaceAll [c] r s = s.flatMap fun d => if d = c then r else [d] := by
  induction s with
  | nil => rfl
  | cons d s ih =>
    rw [List.flatMap_cons, ← ih]
    by_cases h : d = c
    · simp [replaceAll, replaceFrom, h]
    · simp [replaceAll, replaceFrom, h, Ne.symm h]

/-! ## Cutting and joining -/

theorem segments_of_notMem (h : sep ∉ s) : segments sep s = [s] := by
  induction s with
  | nil => rfl
  | cons c s ih =>
    rw [List.mem_cons, not_or] at h
    rw [segments, if_neg (Ne.symm h.1), ih h.2]

theorem segments_append (s r : List Char) :
    segments sep (s ++ sep :: r) = segments sep s ++ segments sep r := by
  induction s with
  | nil => rw [List.nil_append, segments.eq_2, if_pos rfl, segments.eq_1, List.singleton_append]
  | cons c s ih =>
    rw [List.cons_append, segments, segments, ih]
    split
    · rfl
    · rcases hs : segments sep s with _ | ⟨piece, pieces⟩
      · exact absurd hs (segments_ne_nil sep s)
      · rfl

/-- The pieces of a text that is joined from others are the pieces of these. -/
theorem segments_joinWith_eq_flatMap {texts : List String} (hne : texts ≠ []) :
    segments sep (joinWith (String.singleton sep) texts).toList =
      texts.flatMap fun text => segments sep text.toList := by
  induction texts with
  | nil => exact absurd rfl hne
  | cons first rest ih =>
    cases rest with
    | nil => rw [joinWith_singleton, List.flatMap_singleton]
    | cons second rest =>
      rw [joinWith_cons_cons, String.toList_append, String.toList_append, String.toList_singleton,
        List.append_assoc, List.singleton_append, segments_append, ih (List.cons_ne_nil _ _)]
      rfl

/-- In a text that is joined from others every text but the first has the separator in front. -/
theorem toList_joinWith_cons (sep first : String) (rest : List String) :
    (joinWith sep (first :: rest)).toList =
      first.toList ++ rest.flatMap fun text => sep.toList ++ text.toList := by
  induction rest generalizing first with
  | nil => exact (List.append_nil _).symm
  | cons second rest ih =>
    rw [joinWith_cons_cons, String.toList_append, String.toList_append, ih, List.flatMap_cons,
      List.append_assoc, List.append_assoc]

/-- A text stands in the text that is joined from it and others. -/
theorem infix_joinWith {text : String} {texts : List String} (h : text ∈ texts) (sep : String) :
    text.toList <:+: (joinWith sep texts).toList := by
  cases texts with
  | nil => exact absurd h List.not_mem_nil
  | cons first rest =>
    rw [toList_joinWith_cons]
    rcases List.mem_cons.mp h with rfl | h
    · exact (List.prefix_append _ _).isInfix
    · have hpiece : sep.toList ++ text.toList ∈ rest.map fun text => sep.toList ++ text.toList :=
        List.mem_map_of_mem h
      exact (List.suffix_append _ _).isInfix.trans
        ((List.infix_of_mem_flatten hpiece).trans (List.suffix_append _ _).isInfix)

theorem infix_append (front s behind : String) : s.toList <:+: (front ++ s ++ behind).toList := by
  rw [String.toList_append, String.toList_append]
  exact List.infix_append _ _ _

/-- Texts without the separator are the pieces of the text that is joined from them. -/
theorem segments_joinWith {texts : List String} (hne : texts ≠ [])
    (h : ∀ text ∈ texts, sep ∉ text.toList) :
    segments sep (joinWith (String.singleton sep) texts).toList = texts.map String.toList := by
  rw [segments_joinWith_eq_flatMap hne, List.map_eq_flatMap]
  exact List.flatMap_congr fun text htext => segments_of_notMem (h text htext)

/-- A text that holds the separator has several pieces. -/
theorem one_lt_length_segments (h : sep ∈ s) : 1 < (segments sep s).length := by
  obtain ⟨front, back, rfl⟩ := List.append_of_mem h
  have hfront := List.length_pos_iff.mpr (segments_ne_nil sep front)
  have hback := List.length_pos_iff.mpr (segments_ne_nil sep back)
  rw [segments_append, List.length_append]
  omega

theorem infix_of_mem_linesFrom (h : line ∈ linesFrom t s) : line <:+: t.reverse ++ s := by
  induction t, s using linesFrom.induct with
  | case1 t ht =>
    rw [linesFrom, if_pos ht] at h
    exact absurd h List.not_mem_nil
  | case2 t ht =>
    rw [linesFrom, if_neg ht, List.mem_singleton] at h
    rw [h, List.append_nil]
  | case3 t rest ih =>
    rw [linesFrom] at h
    rcases List.mem_cons.mp h with rfl | h
    · exact (List.prefix_append _ _).isInfix
    · exact (ih h).trans
        ((List.suffix_append ['\r', '\n'] rest).trans (List.suffix_append _ _)).isInfix
  | case4 t c rest hpair hc ih =>
    rw [linesFrom.eq_3 _ _ _ hpair, if_pos hc] at h
    rcases List.mem_cons.mp h with rfl | h
    · exact (List.prefix_append _ _).isInfix
    · exact (ih h).trans ((List.suffix_cons c rest).trans (List.suffix_append _ _)).isInfix
  | case5 t c rest hpair hc ih =>
    rw [linesFrom.eq_3 _ _ _ hpair, if_neg hc] at h
    have hline := ih h
    rw [List.reverse_cons, List.append_assoc] at hline
    exact hline

/-- A line is a part of the text. -/
theorem infix_of_mem_lines (h : line ∈ lines s) : line <:+: s :=
  infix_of_mem_linesFrom h

/-- A trimmed text is a part of the text. -/
theorem infix_trim (s : List Char) : trim s <:+: s := by
  have hfront : s.dropWhile isBlank <:+ s := List.dropWhile_suffix isBlank
  refine List.IsInfix.trans ?_ hfront.isInfix
  rw [trim, dropEndWhile, ← List.reverse_infix, List.reverse_reverse]
  exact (List.dropWhile_suffix isBlank).isInfix

/-! ## Separated texts -/

/-- A part that does not hold the separator stands in one of the texts that it separates. -/
theorem infix_append_cons_iff (h : sep ∉ part) :
    part <:+: s ++ sep :: t ↔ part <:+: s ∨ part <:+: t := by
  constructor
  · rw [List.infix_append_iff, List.infix_cons_iff]
    rintro (hs | (hfront | ht) | ⟨front, back, rfl, hfront, hback⟩)
    · exact Or.inl hs
    · rcases List.prefix_cons_iff.mp hfront with rfl | ⟨rest, rfl, -⟩
      · exact Or.inl List.nil_infix
      · exact absurd List.mem_cons_self h
    · exact Or.inr ht
    · rcases List.prefix_cons_iff.mp hback with rfl | ⟨rest, rfl, -⟩
      · rw [List.append_nil]
        exact Or.inl hfront.isInfix
      · exact absurd (List.mem_append_right _ List.mem_cons_self) h
  · rintro (hs | ht)
    · exact hs.trans (List.prefix_append _ _).isInfix
    · exact ht.trans ((List.suffix_cons sep t).trans (List.suffix_append _ _)).isInfix

/-- A part that does not hold the separator stands in one of the texts that end with it, or behind
them all. -/
theorem infix_flatMap_append_iff {texts : List (List Char)} (h : sep ∉ part) :
    part <:+: texts.flatMap (· ++ [sep]) ++ t ↔ (∃ text ∈ texts, part <:+: text) ∨ part <:+: t := by
  induction texts with
  | nil => simp
  | cons text texts ih =>
    rw [List.flatMap_cons, List.append_assoc, List.append_assoc, List.singleton_append,
      infix_append_cons_iff h, ih, ← or_assoc, List.exists_mem_cons_iff]

theorem pair_infix_cons_iff :
    [c, d] <:+: e :: s ↔ (c = e ∧ s.head? = some d) ∨ [c, d] <:+: s := by
  rw [List.infix_cons_iff, List.cons_prefix_cons]
  cases s with
  | nil => simp
  | cons f s => simp [List.cons_prefix_cons, eq_comm]

/-- Replacing a pair by a text that begins alike keeps the first character. -/
theorem head?_replaceAll (r s : List Char) :
    (replaceAll [c, d] (c :: r) s).head? = s.head? := by
  cases s with
  | nil => rfl
  | cons e s =>
    by_cases he : e = c
    · subst he
      cases s with
      | nil => simp [replaceAll, replaceFrom]
      | cons f s =>
        by_cases hf : f = d
        · rw [hf, replaceAll_pair_hit]
          rfl
        · rw [replaceAll_pair_of_second_ne hf]
          rfl
    · rw [replaceAll_pair_of_ne he]
      rfl

/-- A pair that is replaced by itself with a gap in it does not occur any more. -/
theorem not_infix_replaceAll (hcd : c ≠ d) (hcg : c ≠ g) (hgd : g ≠ d) (s : List Char) :
    ¬ [c, d] <:+: replaceAll [c, d] [c, g, d] s := by
  induction s using List.twoStepInduction with
  | nil => simp [replaceAll, replaceFrom]
  | singleton e => simp [replaceAll, replaceFrom, pair_infix_cons_iff]
  | cons_cons e f s ih ih' =>
    by_cases he : e = c
    · subst he
      by_cases hf : f = d
      · subst hf
        rw [replaceAll_pair_hit, List.cons_append, List.cons_append, List.cons_append,
          List.nil_append, pair_infix_cons_iff, pair_infix_cons_iff, pair_infix_cons_iff]
        simp [hcd, hcg, hgd, ih]
      · rw [replaceAll_pair_of_second_ne hf, pair_infix_cons_iff, head?_replaceAll]
        simp [hf, ih']
    · rw [replaceAll_pair_of_ne he, pair_infix_cons_iff]
      simp [Ne.symm he, ih']

/-- Nothing is replaced in a text in which the pair does not occur. -/
theorem replaceAll_eq_self (h : ¬ [c, d] <:+: s) (r : List Char) : replaceAll [c, d] r s = s := by
  induction s with
  | nil => rfl
  | cons e s ih =>
    rw [pair_infix_cons_iff, not_or] at h
    by_cases he : e = c
    · subst he
      cases s with
      | nil => simp [replaceAll, replaceFrom]
      | cons f s =>
        have hf : f ≠ d := fun hf => h.1 ⟨rfl, congrArg some hf⟩
        rw [replaceAll_pair_of_second_ne hf, ih h.2]
    · rw [replaceAll_pair_of_ne he, ih h.2]

end TypedClient.Text

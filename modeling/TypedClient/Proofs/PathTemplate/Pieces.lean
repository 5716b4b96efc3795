import Mathlib.Data.List.TakeWhile
import TypedClient.PathTemplate
import TypedClient.Proofs.FirstSeen

/-!
# The pieces of a path template

A template is cut at its placeholders, each of which is a name in braces.  The pieces spell the
template, and text without braces around a template adds characters only.

* `name?_eq_some_iff`: where a placeholder is closed.
* `text_pieces`: the pieces spell the template.
* `IsName`, `isName_of_mem_pieces`: the names of placeholders.
* `pieces_append_left`, `pieces_append_right`: text without braces around a template.
* `mem_placeholders_iff`, `nodup_placeholders`: the names of a template.
-/

namespace TypedClient.PathTemplate

/-! ## Names -/

/-- A text that may be the name of a placeholder: it is not empty and holds neither braces nor
slashes. -/
structure IsName (name : List Char) : Prop where
  ne_nil : name ≠ []
  chars : ∀ c ∈ name, isNameChar c = true

theorem isNameChar_opening : isNameChar opening = false := rfl

theorem IsName.opening_notMem {name : List Char} (h : IsName name) : opening ∉ name := by
  intro hmem
  have htrue := h.chars opening hmem
  rw [isNameChar_opening] at htrue
  cases htrue

/-- The characters at the front of a text that may stand in a name, up to a closing brace. -/
theorem takeWhile_isNameChar_append {name rest : List Char}
    (h : ∀ c ∈ name, isNameChar c = true) :
    (name ++ closing :: rest).takeWhile isNameChar = name := by
  rw [List.takeWhile_append_of_pos h, List.takeWhile_cons_of_neg (by decide), List.append_nil]

/-- A placeholder is closed behind the name that stands in front of the first closing brace. -/
theorem name?_eq_some_iff {s name : List Char} :
    name? s = some name ↔ IsName name ∧ ∃ rest, s = name ++ closing :: rest := by
  unfold name?
  dsimp only
  constructor
  · intro h
    split at h
    · cases h
    · rename_i hempty
      split at h
      · rename_i hclosed
        obtain rfl := Option.some_inj.mp h
        refine ⟨⟨fun hnil => hempty (List.isEmpty_iff.mpr hnil), fun c hc => ?_⟩, ?_⟩
        · exact List.mem_takeWhile_imp hc
        · obtain ⟨rest, hrest⟩ := List.head?_eq_some_iff.mp hclosed
          refine ⟨rest, ?_⟩
          rw [← hrest]
          have hfront : s.takeWhile isNameChar <+: s := List.takeWhile_prefix isNameChar
          exact (List.prefix_iff_eq_append.mp hfront).symm
      · cases h
  · rintro ⟨hname, rest, rfl⟩
    rw [takeWhile_isNameChar_append hname.chars, if_neg, if_pos]
    · rw [List.drop_left, List.head?_cons]
    · rw [List.isEmpty_iff]
      exact hname.ne_nil

/-! ## Cutting a template -/

@[simp] theorem pieces_nil : pieces [] = [] := by
  rw [pieces]

theorem pieces_cons_of_ne {c : Char} (h : c ≠ opening) (rest : List Char) :
    pieces (c :: rest) = .char c :: pieces rest := by
  rw [pieces, if_neg h]

theorem pieces_opening_of_none {rest : List Char} (h : name? rest = none) :
    pieces (opening :: rest) = .char opening :: pieces rest := by
  rw [pieces, if_pos rfl, h]

theorem pieces_placeholder {name : List Char} (h : IsName name) (rest : List Char) :
    pieces (opening :: name ++ closing :: rest) = .placeholder name :: pieces rest := by
  rw [List.cons_append, pieces, if_pos rfl, name?_eq_some_iff.mpr ⟨h, rest, rfl⟩]
  dsimp only
  congr 2
  rw [List.drop_append, List.drop_of_length_le (Nat.le_succ _), List.nil_append,
    Nat.add_sub_cancel_left]
  rfl

/-- A template is empty, starts with a character of its own, or starts with a placeholder. -/
theorem pieces_induction {P : List Char → Prop} (nil : P [])
    (char : ∀ c rest, (c = opening → name? rest = none) →
      pieces (c :: rest) = .char c :: pieces rest → P rest → P (c :: rest))
    (placeholder : ∀ name rest, IsName name →
      pieces (opening :: name ++ closing :: rest) = .placeholder name :: pieces rest →
      P rest → P (opening :: name ++ closing :: rest))
    (s : List Char) : P s := by
  induction s using pieces.induct with
  | case1 => exact nil
  | case2 rest name hname ih =>
    obtain ⟨hvalid, behind, rfl⟩ := name?_eq_some_iff.mp hname
    have hdrop : (name ++ closing :: behind).drop (name.length + 1) = behind := by
      rw [List.drop_append, List.drop_of_length_le (Nat.le_succ _), List.nil_append,
        Nat.add_sub_cancel_left]
      rfl
    rw [hdrop] at ih
    exact placeholder name behind hvalid (pieces_placeholder hvalid behind) ih
  | case3 rest hname ih =>
    exact char opening rest (fun _ => hname) (pieces_opening_of_none hname) ih
  | case4 c rest hc ih =>
    exact char c rest (fun heq => absurd heq hc) (pieces_cons_of_ne hc rest) ih

/-- The pieces spell the template. -/
theorem text_pieces (s : List Char) : (pieces s).flatMap Piece.text = s := by
  induction s using pieces_induction with
  | nil => rw [pieces_nil, List.flatMap_nil]
  | char c rest _ hpieces ih =>
    rw [hpieces, List.flatMap_cons, ih]
    rfl
  | placeholder name rest _ hpieces ih =>
    rw [hpieces, List.flatMap_cons, ih, Piece.text, List.append_assoc]
    rfl

/-- The names of placeholders. -/
theorem isName_of_mem_pieces {name s : List Char} (h : .placeholder name ∈ pieces s) :
    IsName name := by
  induction s using pieces_induction with
  | nil =>
    rw [pieces_nil] at h
    exact absurd h List.not_mem_nil
  | char c rest _ hpieces ih =>
    rw [hpieces, List.mem_cons] at h
    rcases h with h | h
    · cases h
    · exact ih h
  | placeholder other rest hvalid hpieces ih =>
    rw [hpieces, List.mem_cons] at h
    rcases h with h | h
    · rw [Piece.placeholder.inj h]
      exact hvalid
    · exact ih h

/-! ## Text around a template -/

/-- Text without opening braces in front of a template adds characters. -/
theorem pieces_append_left {l : List Char} (hl : opening ∉ l) (s : List Char) :
    pieces (l ++ s) = l.map .char ++ pieces s := by
  induction l with
  | nil => rfl
  | cons c rest ih =>
    rw [List.mem_cons, not_or] at hl
    rw [List.cons_append, pieces_cons_of_ne (fun heq => hl.1 heq.symm), ih hl.2]
    rfl

/-- Text without closing braces behind a template closes no placeholder. -/
theorem name?_append_right {s r : List Char} (hr : closing ∉ r) (h : name? s = none) :
    name? (s ++ r) = none := by
  rw [Option.eq_none_iff_forall_ne_some]
  intro name hname
  obtain ⟨hvalid, rest, heq⟩ := name?_eq_some_iff.mp hname
  rcases List.append_eq_append_iff.mp heq with ⟨middle, -, hrest⟩ | ⟨middle, hs, hrest⟩
  · exact hr (hrest ▸ List.mem_append_right _ List.mem_cons_self)
  · cases middle with
    | nil =>
      rw [List.nil_append] at hrest
      exact hr (hrest ▸ List.mem_cons_self)
    | cons c behind =>
      rw [List.cons_append, List.cons.injEq] at hrest
      have hsome : name? s = some name :=
        name?_eq_some_iff.mpr ⟨hvalid, behind, by rw [hs, hrest.1]⟩
      rw [h] at hsome
      cases hsome

/-- Text without braces behind a template adds characters. -/
theorem pieces_append_right {r : List Char} (hopening : opening ∉ r) (hclosing : closing ∉ r)
    (s : List Char) : pieces (s ++ r) = pieces s ++ r.map .char := by
  induction s using pieces_induction with
  | nil =>
    have hr := pieces_append_left hopening []
    rw [List.append_nil] at hr
    rw [List.nil_append, hr, pieces_nil, List.append_nil, List.nil_append]
  | char c rest hc hpieces ih =>
    by_cases heq : c = opening
    · subst heq
      rw [hpieces, List.cons_append,
        pieces_opening_of_none (name?_append_right hclosing (hc rfl)), ih, List.cons_append]
    · rw [hpieces, List.cons_append, pieces_cons_of_ne heq, ih, List.cons_append]
  | placeholder name rest hvalid hpieces ih =>
    rw [hpieces, List.append_assoc]
    exact (pieces_placeholder hvalid (rest ++ r)).trans (congrArg _ ih)

/-! ## The names of a template -/

theorem mem_placeholders_iff {n template : String} :
    n ∈ placeholders template ↔ .placeholder n.toList ∈ pieces template.toList := by
  rw [placeholders, List.mem_eraseDups, List.mem_filterMap]
  constructor
  · rintro ⟨piece, hpiece, hname⟩
    cases piece with
    | char c => cases hname
    | placeholder name =>
      have heq : String.ofList name = n := Option.some_inj.mp hname
      rw [← heq, String.toList_ofList]
      exact hpiece
  · intro h
    exact ⟨_, h, by rw [Piece.name?, String.ofList_toList]⟩

/-- No name of a template is listed twice. -/
theorem nodup_placeholders (template : String) : (placeholders template).Nodup := by
  exact nodup_eraseDups _

end TypedClient.PathTemplate

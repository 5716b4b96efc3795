import Mathlib.Data.List.Pairwise
import TypedClient.Proofs.PathTemplate.Marks

/-!
# Scanning a template and putting values into it

The name of a placeholder holds no brace.  A placeholder is therefore known by the position of its
opening brace, no two of them overlap, and the scan that cuts a template from left to right misses
none, whatever braces stand around them.  Putting values in changes the placeholders that have one
and nothing else.

* `StandsAt`: a placeholder at a position of a template.
* `placedFrom`, `mem_placedFrom_iff`: the scan finds the placeholders that stand in a template.
* `pairwise_placedFrom`: they stand apart, in the order of their positions.
* `Substitutes`: a result is a template in which exactly the placeholders with a value are replaced.
* `Scanned`, `scanned`: what holds of the names of a template and of its expansions.
-/

namespace TypedClient.PathTemplate

/-! ## Placeholders at a position -/

/-- The placeholder with a name stands at a position of a template. -/
structure StandsAt (template : List Char) (name : String) (i : ℕ) : Prop where
  isName : IsName name.toList
  here : token name.toList <+: template.drop i

/-- A placeholder takes its name and two braces. -/
def width (name : String) : ℕ := (token name.toList).length

variable {s text : List Char} {name : String} {i : ℕ}

theorem width_ofList (chars : List Char) : width (String.ofList chars) = chars.length + 2 := by
  simp [width, token_eq]

theorem not_standsAt_nil : ¬ StandsAt [] name i := by
  intro h
  have hnil := h.here
  rw [List.drop_nil, List.prefix_nil, token_eq] at hnil
  cases hnil

theorem standsAt_zero_iff {c : Char} {rest : List Char} :
    StandsAt (c :: rest) name 0 ↔ c = opening ∧ name? rest = some name.toList := by
  constructor
  · intro h
    exact (token_prefix_iff h.isName).mp h.here
  · intro h
    have hname := (name?_eq_some_iff.mp h.2).1
    exact ⟨hname, (token_prefix_iff hname).mpr h⟩

theorem standsAt_succ_iff {c : Char} {rest : List Char} :
    StandsAt (c :: rest) name (i + 1) ↔ StandsAt rest name i :=
  ⟨fun h => ⟨h.isName, h.here⟩, fun h => ⟨h.isName, h.here⟩⟩

/-- Behind a text without opening braces the placeholders are those of what follows. -/
theorem standsAt_append_iff (htext : opening ∉ text) :
    StandsAt (text ++ s) name i ↔ ∃ j, i = text.length + j ∧ StandsAt s name j := by
  induction text generalizing i with
  | nil => simp
  | cons c rest ih =>
    rw [List.mem_cons, not_or] at htext
    cases i with
    | zero =>
      rw [List.cons_append, standsAt_zero_iff]
      constructor
      · rintro ⟨rfl, -⟩
        exact absurd rfl htext.1
      · rintro ⟨j, hj, -⟩
        rw [List.length_cons] at hj
        omega
    | succ i =>
      rw [List.cons_append, standsAt_succ_iff, ih htext.2]
      refine exists_congr fun j => and_congr_left fun _ => ?_
      rw [List.length_cons]
      omega

/-- Where no placeholder starts, all of them stand behind the first character. -/
theorem standsAt_char_iff {c : Char} {rest : List Char} (hc : c = opening → name? rest = none) :
    StandsAt (c :: rest) name i ↔ ∃ j, i = 1 + j ∧ StandsAt rest name j := by
  cases i with
  | zero =>
    rw [standsAt_zero_iff]
    constructor
    · rintro ⟨heq, hsome⟩
      rw [hc heq] at hsome
      cases hsome
    · rintro ⟨j, hj, -⟩
      omega
  | succ i =>
    rw [standsAt_succ_iff]
    constructor
    · exact fun h => ⟨i, by omega, h⟩
    · rintro ⟨j, hj, h⟩
      obtain rfl : i = j := by omega
      exact h

/-- A placeholder at the front is one, and the others stand behind it: its tail holds no opening
brace, so that none starts inside. -/
theorem standsAt_placeholder_iff {chars rest : List Char} (hchars : IsName chars) :
    StandsAt (opening :: chars ++ closing :: rest) name i ↔
      (i = 0 ∧ name = String.ofList chars) ∨
        ∃ j, i = chars.length + 2 + j ∧ StandsAt rest name j := by
  have htail : chars ++ closing :: rest = (chars ++ [closing]) ++ rest := by
    rw [List.append_assoc]
    rfl
  have hlength : (chars ++ [closing]).length = chars.length + 1 := by simp
  cases i with
  | zero =>
    rw [List.cons_append, standsAt_zero_iff, name?_eq_some_iff.mpr ⟨hchars, rest, rfl⟩]
    constructor
    · rintro ⟨-, hsome⟩
      rw [Option.some_inj.mp hsome, String.ofList_toList]
      exact Or.inl ⟨rfl, rfl⟩
    · rintro (⟨-, rfl⟩ | ⟨j, hj, -⟩)
      · rw [String.toList_ofList]
        exact ⟨rfl, rfl⟩
      · omega
  | succ i =>
    rw [List.cons_append, standsAt_succ_iff, htail,
      standsAt_append_iff (opening_notMem_tail hchars), hlength]
    constructor
    · rintro ⟨j, rfl, h⟩
      exact Or.inr ⟨j, by omega, h⟩
    · rintro (⟨hi, -⟩ | ⟨j, hj, h⟩)
      · omega
      · exact ⟨j, by omega, h⟩

/-- Some placeholder with a name stands in a template exactly if it is a part of the template. -/
theorem exists_standsAt_iff :
    (∃ i, StandsAt s name i) ↔ IsName name.toList ∧ token name.toList <:+: s := by
  constructor
  · rintro ⟨i, h⟩
    exact ⟨h.isName, h.here.isInfix.trans (List.drop_suffix i s).isInfix⟩
  · rintro ⟨hname, front, behind, rfl⟩
    refine ⟨front.length, hname, ?_⟩
    rw [List.append_assoc, List.drop_left]
    exact List.prefix_append _ _

/-! ## What the scan finds -/

/-- The placeholders among pieces, each with the position where it stands, if the pieces start at
the given one. -/
def placedFrom (k : ℕ) : List Piece → List (ℕ × String)
  | [] => []
  | .char _ :: rest => placedFrom (k + 1) rest
  | .placeholder name :: rest => (k, String.ofList name) :: placedFrom (k + (name.length + 2)) rest

/-- The scan finds the placeholders that stand in a template. -/
theorem mem_placedFrom_iff (s : List Char) {k : ℕ} :
    (i, name) ∈ placedFrom k (pieces s) ↔ ∃ j, i = k + j ∧ StandsAt s name j := by
  induction s using pieces_induction generalizing k with
  | nil => simp [placedFrom, not_standsAt_nil]
  | char c rest hc hpieces ih =>
    rw [hpieces, placedFrom, ih]
    simp only [standsAt_char_iff hc]
    constructor
    · rintro ⟨j, rfl, h⟩
      exact ⟨1 + j, by omega, j, rfl, h⟩
    · rintro ⟨_, rfl, j, rfl, h⟩
      exact ⟨j, by omega, h⟩
  | placeholder chars rest hchars hpieces ih =>
    rw [hpieces, placedFrom, List.mem_cons, ih, Prod.mk.injEq]
    simp only [standsAt_placeholder_iff hchars]
    constructor
    · rintro (⟨rfl, rfl⟩ | ⟨j, rfl, h⟩)
      · exact ⟨0, rfl, Or.inl ⟨rfl, rfl⟩⟩
      · exact ⟨chars.length + 2 + j, by omega, Or.inr ⟨j, rfl, h⟩⟩
    · rintro ⟨_, rfl, ⟨rfl, rfl⟩ | ⟨j, rfl, h⟩⟩
      · exact Or.inl ⟨rfl, rfl⟩
      · exact Or.inr ⟨j, by omega, h⟩

theorem mem_placed_iff {template : List Char} :
    (i, name) ∈ placedFrom 0 (pieces template) ↔ StandsAt template name i := by
  rw [mem_placedFrom_iff]
  simp

theorem le_of_mem_placedFrom {k : ℕ} {parts : List Piece} {place : ℕ × String}
    (h : place ∈ placedFrom k parts) : k ≤ place.1 := by
  induction parts generalizing k with
  | nil => cases h
  | cons part rest ih =>
    cases part with
    | char c =>
      have hle := ih h
      omega
    | placeholder other =>
      rcases List.mem_cons.mp h with rfl | h
      · exact Nat.le_refl k
      · have hle := ih h
        omega

/-- Placeholders that are found later stand behind the earlier ones. -/
theorem pairwise_placedFrom (k : ℕ) (parts : List Piece) :
    (placedFrom k parts).Pairwise fun a b => a.1 + width a.2 ≤ b.1 := by
  induction parts generalizing k with
  | nil => exact List.Pairwise.nil
  | cons part rest ih =>
    cases part with
    | char c => exact ih (k + 1)
    | placeholder other =>
      refine List.pairwise_cons.mpr ⟨fun place hplace => ?_, ih _⟩
      rw [width_ofList]
      exact le_of_mem_placedFrom hplace

theorem map_placedFrom (k : ℕ) (parts : List Piece) :
    (placedFrom k parts).map Prod.snd = parts.filterMap Piece.name? := by
  induction parts generalizing k with
  | nil => rfl
  | cons part rest ih =>
    cases part with
    | char c => exact ih (k + 1)
    | placeholder other =>
      rw [placedFrom, List.map_cons, ih]
      rfl

/-- The names of a template are those of the first placeholders with each name. -/
theorem placeholders_eq (template : String) :
    placeholders template =
      (firstBy Prod.snd (placedFrom 0 (pieces template.toList))).map Prod.snd := by
  rw [map_firstBy, map_placedFrom]
  rfl

/-! ## Putting values in -/

/-- A placeholder that is replaced, behind what is kept since the one replaced before it. -/
structure Edit where
  kept : List Char
  name : String
  value : String

/-- What an edit stands for in the template. -/
def Edit.before (e : Edit) : List Char := e.kept ++ token e.name.toList

/-- What an edit stands for in the result. -/
def Edit.after (e : Edit) : List Char := e.kept ++ e.value.toList

/-- The replaced placeholders with their values, each with the position where it stands in the
template, if the edits start at the given one. -/
def replacedFrom (k : ℕ) : List Edit → List (ℕ × String × String)
  | [] => []
  | e :: rest =>
    (k + e.kept.length, e.name, e.value) :: replacedFrom (k + e.before.length) rest

/-- The edits turn the template into the result, and they are made at exactly the placeholders that
have a value. -/
structure Substitutes (template : List Char) (value? : String → Option String)
    (edits : List Edit) (tail result : List Char) : Prop where
  template_eq : template = edits.flatMap Edit.before ++ tail
  result_eq : result = edits.flatMap Edit.after ++ tail
  mem_iff : ∀ i name value, (i, name, value) ∈ replacedFrom 0 edits ↔
    StandsAt template name i ∧ value? name = some value

/-- The edits for a list of pieces, behind a text that is kept. -/
structure Edited (value? : String → Option String) (kept : List Char) (parts : List Piece)
    (edits : List Edit) (tail : List Char) : Prop where
  before : kept ++ parts.flatMap Piece.text = edits.flatMap Edit.before ++ tail
  after : kept ++ parts.flatMap (Piece.expand value?) = edits.flatMap Edit.after ++ tail
  mem_iff : ∀ k i name value, (i, name, value) ∈ replacedFrom k edits ↔
    (i, name) ∈ placedFrom (k + kept.length) parts ∧ value? name = some value

variable {value? : String → Option String} {kept : List Char} {piece : Piece} {rest : List Piece}
  {edits : List Edit} {tail : List Char}

theorem Edited.nil : Edited value? kept [] [] kept where
  before := by simp
  after := by simp
  mem_iff := by simp [replacedFrom, placedFrom]

/-- A piece is kept unless it is a placeholder with a value. -/
theorem expand_of_eq_none (h : ∀ chars, piece = .placeholder chars → value? (.ofList chars) = none) :
    piece.expand value? = piece.text := by
  cases piece with
  | char c => rfl
  | placeholder chars => rw [Piece.expand, h chars rfl]

/-- No value is found for a placeholder that is kept. -/
theorem mem_placedFrom_cons_iff
    (h : ∀ chars, piece = .placeholder chars → value? (.ofList chars) = none) {k : ℕ}
    {value : String} :
    (i, name) ∈ placedFrom k (piece :: rest) ∧ value? name = some value ↔
      (i, name) ∈ placedFrom (k + piece.text.length) rest ∧ value? name = some value := by
  cases piece with
  | char c => exact Iff.rfl
  | placeholder chars =>
    have hlength : (Piece.text (.placeholder chars)).length = chars.length + 2 := by
      simp [Piece.text]
    rw [placedFrom, hlength, List.mem_cons, Prod.mk.injEq]
    constructor
    · rintro ⟨⟨-, rfl⟩ | hmem, hvalue⟩
      · rw [h chars rfl] at hvalue
        cases hvalue
      · exact ⟨hmem, hvalue⟩
    · exact fun hmem => ⟨Or.inr hmem.1, hmem.2⟩

/-- A piece that is kept is kept with what stands in front of it. -/
theorem Edited.keep (h : Edited value? (kept ++ piece.text) rest edits tail)
    (hpiece : ∀ chars, piece = .placeholder chars → value? (.ofList chars) = none) :
    Edited value? kept (piece :: rest) edits tail where
  before := by rw [← h.before, List.flatMap_cons, List.append_assoc]
  after := by rw [← h.after, List.flatMap_cons, expand_of_eq_none hpiece, List.append_assoc]
  mem_iff k i name value := by
    rw [h.mem_iff, mem_placedFrom_cons_iff hpiece, List.length_append, Nat.add_assoc]

/-- A placeholder with a value ends what is kept in front of it. -/
theorem Edited.replace {chars : List Char} {text : String}
    (h : Edited value? [] rest edits tail) (hvalue : value? (.ofList chars) = some text) :
    Edited value? kept (.placeholder chars :: rest) (⟨kept, .ofList chars, text⟩ :: edits) tail where
  before := by
    rw [List.flatMap_cons, List.flatMap_cons, List.append_assoc, ← h.before, Edit.before,
      String.toList_ofList, List.nil_append, List.append_assoc]
    rfl
  after := by
    rw [List.flatMap_cons, List.flatMap_cons, List.append_assoc, ← h.after, Edit.after,
      Piece.expand, hvalue, List.nil_append, List.append_assoc]
  mem_iff k i name value := by
    have hlength : k + (Edit.before ⟨kept, .ofList chars, text⟩).length =
        k + kept.length + (chars.length + 2) := by
      simp [Edit.before, token_eq]
      omega
    rw [replacedFrom, placedFrom, List.mem_cons, List.mem_cons, h.mem_iff, hlength,
      List.length_nil, Nat.add_zero, Prod.mk.injEq, Prod.mk.injEq, Prod.mk.injEq]
    constructor
    · rintro (⟨rfl, rfl, rfl⟩ | hmem)
      · exact ⟨Or.inl ⟨rfl, rfl⟩, hvalue⟩
      · exact ⟨Or.inr hmem.1, hmem.2⟩
    · rintro ⟨⟨rfl, rfl⟩ | hmem, hsome⟩
      · exact Or.inl ⟨rfl, rfl, Option.some_inj.mp (hsome.symm.trans hvalue)⟩
      · exact Or.inr ⟨hmem, hsome⟩

theorem exists_edited (value? : String → Option String) (parts : List Piece) (kept : List Char) :
    ∃ edits tail, Edited value? kept parts edits tail := by
  induction parts generalizing kept with
  | nil => exact ⟨[], kept, .nil⟩
  | cons piece rest ih =>
    by_cases hpiece : ∀ chars, piece = .placeholder chars → value? (.ofList chars) = none
    · obtain ⟨edits, tail, h⟩ := ih (kept ++ piece.text)
      exact ⟨edits, tail, h.keep hpiece⟩
    · push Not at hpiece
      obtain ⟨chars, rfl, hne⟩ := hpiece
      obtain ⟨text, htext⟩ := Option.ne_none_iff_exists'.mp hne
      obtain ⟨edits, tail, h⟩ := ih []
      exact ⟨_, tail, h.replace htext⟩

/-- Expanding a template replaces exactly the placeholders that have a value. -/
theorem exists_substitutes (template : String) (value? : String → Option String) :
    ∃ edits tail, Substitutes template.toList value? edits tail (expand template value?).toList := by
  obtain ⟨edits, tail, h⟩ := exists_edited value? (pieces template.toList) []
  refine ⟨edits, tail, ?_, ?_, fun i name value => ?_⟩
  · rw [← h.before, List.nil_append, text_pieces]
  · rw [← h.after, List.nil_append, expand, String.toList_ofList]
  · rw [h.mem_iff, ← mem_placed_iff]
    rfl

/-- A piece whose name has the same value is expanded in the same way. -/
theorem expand_congr {template : String} {value? other? : String → Option String}
    (h : ∀ name ∈ placeholders template, value? name = other? name) :
    expand template value? = expand template other? := by
  unfold expand
  congr 1
  refine List.flatMap_congr fun piece hpiece => ?_
  cases piece with
  | char c => rfl
  | placeholder name =>
    have hmem : String.ofList name ∈ placeholders template := by
      rw [mem_placeholders_iff, String.toList_ofList]
      exact hpiece
    rw [Piece.expand, Piece.expand, h _ hmem]

theorem expand_none (template : String) : expand template (fun _ => none) = template := by
  have htext : (Piece.expand fun _ => none) = Piece.text := by
    funext piece
    cases piece <;> rfl
  rw [expand, htext, text_pieces, String.ofList_toList]

/-! ## Templates -/

/-- Of two placeholders at their positions, none reaches into the other. -/
def Apart (a b : ℕ × String) : Prop := a.1 + width a.2 ≤ b.1 ∨ b.1 + width b.2 ≤ a.1

instance : Std.Symm Apart := ⟨fun _ _ h => h.symm⟩

/-- Of two names the first one stands in a template before the second one does. -/
def StandsBefore (template : String) (m n : String) : Prop :=
  ∃ i, StandsAt template.toList m i ∧ ∀ j, StandsAt template.toList n j → i < j

/-- The names of a template are those of the placeholders that stand in it, and its expansions are
the template with values in their place. -/
structure Scanned (template : String) : Prop where
  /-- No name is listed twice. -/
  nodup : (placeholders template).Nodup
  /-- The names are those that stand in braces in the template. -/
  mem_iff : ∀ name, name ∈ placeholders template ↔
    IsName name.toList ∧ token name.toList <:+: template.toList
  /-- The names stand in the order of their first occurrences. -/
  ordered : (placeholders template).Pairwise (StandsBefore template)
  /-- No two placeholders overlap. -/
  apart : ∀ m n i j, StandsAt template.toList m i → StandsAt template.toList n j →
    (i, m) ≠ (j, n) → Apart (i, m) (j, n)
  /-- An expansion replaces exactly the placeholders that have a value. -/
  replaces : ∀ value?, ∃ edits tail,
    Substitutes template.toList value? edits tail (expand template value?).toList
  /-- An expansion depends on the values of the listed names alone. -/
  depends : ∀ value? other?, (∀ name ∈ placeholders template, value? name = other? name) →
    expand template value? = expand template other?
  /-- Where no listed name has a value, the template is left as it is. -/
  unchanged : ∀ value?, (∀ name ∈ placeholders template, value? name = none) →
    expand template value? = template

theorem standsBefore_of_mem_firstBy {template : String} {a b : ℕ × String}
    (ha : a ∈ placedFrom 0 (pieces template.toList))
    (hb : b ∈ firstBy Prod.snd (placedFrom 0 (pieces template.toList)))
    (hlt : a.1 + width a.2 ≤ b.1) : StandsBefore template a.2 b.2 := by
  have hsorted : (placedFrom 0 (pieces template.toList)).Pairwise fun a b => a.1 ≤ b.1 :=
    (pairwise_placedFrom 0 _).imp fun h => Nat.le_trans (Nat.le_add_right _ _) h
  refine ⟨a.1, mem_placed_iff.mp ha, fun j hj => ?_⟩
  have hfirst : b.1 ≤ j :=
    rel_of_mem_firstBy (fun a => Nat.le_refl a.1) hsorted hb (mem_placed_iff.mpr hj) rfl
  have hpos : 0 < width a.2 := by
    rw [width, token_eq, List.length_cons]
    omega
  omega

/-- Every template is scanned in full, and expanded at its placeholders only. -/
theorem scanned (template : String) : Scanned template where
  nodup := nodup_placeholders template
  mem_iff name := by
    rw [placeholders_eq, mem_map_firstBy_iff, ← exists_standsAt_iff, List.mem_map]
    constructor
    · rintro ⟨⟨i, _⟩, hplace, rfl⟩
      exact ⟨i, mem_placed_iff.mp hplace⟩
    · rintro ⟨i, h⟩
      exact ⟨(i, name), mem_placed_iff.mpr h, rfl⟩
  ordered := by
    rw [placeholders_eq, List.pairwise_map]
    have hplaced := (pairwise_placedFrom 0 (pieces template.toList)).sublist
      (firstBy_sublist Prod.snd _)
    exact hplaced.imp_of_mem fun ha hb hlt =>
      standsBefore_of_mem_firstBy (mem_of_mem_firstBy ha) hb hlt
  apart m n i j hm hn hne := by
    have happart : (placedFrom 0 (pieces template.toList)).Pairwise Apart :=
      (pairwise_placedFrom 0 _).imp Or.inl
    exact happart.forall (mem_placed_iff.mpr hm) (mem_placed_iff.mpr hn) hne
  replaces := exists_substitutes template
  depends _ _ := expand_congr
  unchanged _ h := (expand_congr h).trans (expand_none template)

end TypedClient.PathTemplate

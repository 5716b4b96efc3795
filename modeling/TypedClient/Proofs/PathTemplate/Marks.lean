import TypedClient.Proofs.PathTemplate.Pieces

/-!
# Occurrences of a placeholder in a text

A placeholder as it stands in a template starts with a brace and holds no other opening brace, so
that two occurrences of it in a text never overlap.  A text can therefore be cut at all occurrences
at once, and whoever marks some of them marks a part of the cut.  What was marked less in number is
a *capture*: an occurrence that was put together by the text around it.

* `token`, `occurrences`: a placeholder as it stands in a template, and how often it occurs.
* `fill`: a text with something inserted at its marks.
* `Cut`: a text cut at all occurrences of a placeholder.
* `Cut.refines`: marks at some of the occurrences, against the cut.
* `Refines.eq_of_count_eq`, `Refines.eq_or_eq_of_fill_eq`: when nothing was captured.
* `occurrences_pieces`: the occurrences in a template are its placeholders.
-/

namespace TypedClient.PathTemplate

/-- A placeholder as it stands in a template. -/
def token (name : List Char) : List Char := Piece.text (.placeholder name)

theorem token_eq (name : List Char) : token name = opening :: (name ++ [closing]) := rfl

/-- How often a text occurs in another one. -/
def occurrences (t : List Char) : List Char → Nat
  | [] => 0
  | c :: rest => (if t.isPrefixOf (c :: rest) then 1 else 0) + occurrences t rest

variable {name : List Char}

theorem opening_notMem_tail (hname : IsName name) : opening ∉ name ++ [closing] := by
  rw [List.mem_append, not_or]
  exact ⟨hname.opening_notMem, by decide⟩

/-! ## Marked texts -/

/-- A text with something inserted at its marks. -/
def fill (inserted : List Char) : List (Option Char) → List Char
  | [] => []
  | none :: marks => inserted ++ fill inserted marks
  | some c :: marks => c :: fill inserted marks

variable {inserted : List Char}

theorem fill_append (marks more : List (Option Char)) :
    fill inserted (marks ++ more) = fill inserted marks ++ fill inserted more := by
  induction marks with
  | nil => rfl
  | cons mark rest ih =>
    cases mark with
    | none => rw [List.cons_append, fill, ih, fill, List.append_assoc]
    | some c => rw [List.cons_append, fill, ih, fill, List.cons_append]

theorem fill_map_some (text : List Char) : fill inserted (text.map some) = text := by
  induction text with
  | nil => rfl
  | cons c rest ih => rw [List.map_cons, fill, ih]

/-- A text that holds no opening brace was not marked. -/
theorem exists_of_fill_eq_append {marks : List (Option Char)} {text rest : List Char}
    (htext : opening ∉ text) (h : fill (token name) marks = text ++ rest) :
    ∃ more, marks = text.map some ++ more ∧ fill (token name) more = rest := by
  induction text generalizing marks with
  | nil => exact ⟨marks, rfl, h⟩
  | cons c text ih =>
    rw [List.mem_cons, not_or] at htext
    match marks, h with
    | [], h => cases h
    | none :: marks, h =>
      rw [fill, token_eq, List.cons_append, List.cons_append, List.cons.injEq] at h
      exact absurd h.1 htext.1
    | some d :: marks, h =>
      rw [fill, List.cons_append, List.cons.injEq] at h
      obtain ⟨rfl, hrest⟩ := h
      obtain ⟨more, rfl, hmore⟩ := ih htext.2 hrest
      exact ⟨more, rfl, hmore⟩

/-! ## Cutting at all occurrences -/

/-- The text is cut at all occurrences of another one, from left to right. -/
inductive Cut (t : List Char) : List Char → List (Option Char) → Prop
  | nil : Cut t [] []
  | hit {rest : List Char} {marks : List (Option Char)} (h : Cut t rest marks) :
      Cut t (t ++ rest) (none :: marks)
  | char {c : Char} {rest : List Char} {marks : List (Option Char)} (hc : ¬ t <+: c :: rest)
      (h : Cut t rest marks) : Cut t (c :: rest) (some c :: marks)

/-- Every text can be cut. -/
theorem exists_cut {t : List Char} (ht : t ≠ []) (text : List Char) :
    ∃ marks, Cut t text marks := by
  generalize hn : text.length = n
  induction n using Nat.strongRecOn generalizing text with
  | ind n ih =>
    match text with
    | [] => exact ⟨[], .nil⟩
    | c :: rest =>
      by_cases hc : t <+: c :: rest
      · obtain ⟨behind, hbehind⟩ := hc
        have hlength : behind.length < n := by
          have hpos := List.length_pos_iff.mpr ht
          rw [← hn, ← hbehind, List.length_append]
          omega
        obtain ⟨marks, hmarks⟩ := ih behind.length hlength behind rfl
        rw [← hbehind]
        exact ⟨none :: marks, .hit hmarks⟩
      · have hlength : rest.length < n := by
          rw [← hn, List.length_cons]
          omega
        obtain ⟨marks, hmarks⟩ := ih rest.length hlength rest rfl
        exact ⟨some c :: marks, .char hc hmarks⟩

theorem Cut.fill_eq {t text : List Char} {marks : List (Option Char)} (h : Cut t text marks) :
    fill t marks = text := by
  induction h with
  | nil => rfl
  | hit _ ih => rw [fill, ih]
  | char _ _ ih => rw [fill, ih]

/-- Where no opening brace stands, no placeholder occurs. -/
theorem occurrences_append_left {text : List Char} (htext : opening ∉ text) (rest : List Char) :
    occurrences (token name) (text ++ rest) = occurrences (token name) rest := by
  induction text with
  | nil => rfl
  | cons c text ih =>
    rw [List.mem_cons, not_or] at htext
    have hc : (token name).isPrefixOf (c :: (text ++ rest)) = false := by
      rw [token_eq, List.isPrefixOf, beq_eq_false_iff_ne.mpr htext.1, Bool.false_and]
    rw [List.cons_append, occurrences, hc, if_neg Bool.false_ne_true, Nat.zero_add, ih htext.2]

theorem occurrences_token_append (hname : IsName name) (rest : List Char) :
    occurrences (token name) (token name ++ rest) = 1 + occurrences (token name) rest := by
  have hfront : (token name).isPrefixOf (opening :: (name ++ [closing] ++ rest)) = true :=
    List.isPrefixOf_iff_prefix.mpr (List.prefix_append (token name) rest)
  show occurrences (token name) (opening :: (name ++ [closing] ++ rest)) = _
  rw [occurrences, if_pos hfront, occurrences_append_left (opening_notMem_tail hname)]

theorem closing_mem_token (name : List Char) : closing ∈ token name :=
  List.mem_cons_of_mem _ (List.mem_append_right _ (List.mem_singleton_self _))

theorem occurrences_eq_zero {text : List Char} (htext : closing ∉ text) :
    occurrences (token name) text = 0 := by
  induction text with
  | nil => rfl
  | cons c rest ih =>
    have hc : (token name).isPrefixOf (c :: rest) = false := by
      rw [Bool.eq_false_iff]
      intro hfront
      exact htext ((List.isPrefixOf_iff_prefix.mp hfront).subset (closing_mem_token name))
    rw [List.mem_cons, not_or] at htext
    rw [occurrences, hc, if_neg Bool.false_ne_true, ih htext.2]

/-- An occurrence that reached into a text behind would end with one of its characters. -/
theorem token_prefix_of_prefix_append {s r : List Char} (hr : closing ∉ r)
    (h : token name <+: s ++ r) : token name <+: s := by
  obtain ⟨tail, htail⟩ := h
  rcases List.append_eq_append_iff.mp htail with ⟨more, hs, -⟩ | ⟨more, htoken, hmore⟩
  · exact ⟨more, hs.symm⟩
  · rcases List.eq_nil_or_concat more with rfl | ⟨init, last, rfl⟩
    · exact ⟨[], by rw [List.append_nil, htoken, List.append_nil]⟩
    · rw [List.concat_eq_append] at htoken hmore
      have heq : opening :: name ++ [closing] = (s ++ init) ++ [last] := by
        rw [List.append_assoc, ← htoken]
        rfl
      have hlast : closing = last := List.singleton_inj.mp (List.append_inj' heq rfl).2
      refine absurd ?_ hr
      rw [hmore, hlast]
      exact List.mem_append_left _ (List.mem_append_right _ (List.mem_singleton_self _))

/-- Text without closing braces behind another text adds no occurrences. -/
theorem occurrences_append_right {r : List Char} (hr : closing ∉ r) (text : List Char) :
    occurrences (token name) (text ++ r) = occurrences (token name) text := by
  induction text with
  | nil => exact occurrences_eq_zero hr
  | cons c rest ih =>
    have hiff : (token name).isPrefixOf (c :: (rest ++ r)) =
        (token name).isPrefixOf (c :: rest) := by
      rw [Bool.eq_iff_iff, List.isPrefixOf_iff_prefix, List.isPrefixOf_iff_prefix]
      constructor
      · exact fun h => token_prefix_of_prefix_append (s := c :: rest) hr h
      · exact fun h => h.trans (List.prefix_append (c :: rest) r)
    rw [List.cons_append, occurrences, occurrences, ih, hiff]

/-- The occurrences are the hits of the cut. -/
theorem Cut.occurrences_eq (hname : IsName name) {text : List Char} {marks : List (Option Char)}
    (h : Cut (token name) text marks) : occurrences (token name) text = marks.count none := by
  induction h with
  | nil => rfl
  | hit _ ih => rw [occurrences_token_append hname, ih, List.count_cons_self, Nat.add_comm]
  | char hc _ ih =>
    have hfalse := Bool.eq_false_iff.mpr fun htrue => hc (List.isPrefixOf_iff_prefix.mp htrue)
    rw [occurrences, hfalse, if_neg Bool.false_ne_true, Nat.zero_add, ih,
      List.count_cons_of_ne (by simp)]

/-! ## Marks against the cut -/

/-- The marks of the second list are among those of the first, which is the cut of the same text. -/
inductive Refines (t : List Char) : List (Option Char) → List (Option Char) → Prop
  | nil : Refines t [] []
  | hit {cut marks : List (Option Char)} (h : Refines t cut marks) :
      Refines t (none :: cut) (none :: marks)
  | char {c : Char} {cut marks : List (Option Char)} (h : Refines t cut marks) :
      Refines t (some c :: cut) (some c :: marks)
  | capture {cut marks : List (Option Char)} (h : Refines t cut marks) :
      Refines t (none :: cut) (t.map some ++ marks)

/-- Whoever marks some of the occurrences of a placeholder marks a part of the cut. -/
theorem Cut.refines (hname : IsName name) {text : List Char} {cut marks : List (Option Char)}
    (hcut : Cut (token name) text cut) (hmarks : fill (token name) marks = text) :
    Refines (token name) cut marks := by
  induction hcut generalizing marks with
  | nil =>
    match marks, hmarks with
    | [], _ => exact .nil
    | some c :: marks, h => cases h
    | none :: marks, h => cases h
  | hit _ ih =>
    match marks, hmarks with
    | [], h => cases h
    | none :: marks, h => exact .hit (ih (List.append_cancel_left h))
    | some c :: marks, h =>
      rw [fill, token_eq, List.cons_append, List.cons.injEq] at h
      obtain ⟨rfl, hrest⟩ := h
      obtain ⟨more, rfl, hmore⟩ :=
        exists_of_fill_eq_append (opening_notMem_tail hname) hrest
      exact .capture (ih hmore)
  | char hc _ ih =>
    match marks, hmarks with
    | [], h => cases h
    | none :: marks, h => exact absurd ⟨_, h⟩ hc
    | some d :: marks, h =>
      rw [fill, List.cons.injEq] at h
      obtain ⟨rfl, hrest⟩ := h
      exact .char (ih hrest)

theorem count_none_map_some (text : List Char) : (text.map some).count none = 0 := by
  rw [List.count_eq_zero]
  intro hmem
  obtain ⟨c, -, hc⟩ := List.mem_map.mp hmem
  cases hc

/-- There are at least as many hits as marks. -/
theorem Refines.count_le {t : List Char} {cut marks : List (Option Char)}
    (h : Refines t cut marks) : marks.count none ≤ cut.count none := by
  induction h with
  | nil => exact Nat.le_refl 0
  | hit _ ih =>
    rw [List.count_cons_self, List.count_cons_self]
    exact Nat.succ_le_succ ih
  | char _ ih =>
    rw [List.count_cons_of_ne (by simp), List.count_cons_of_ne (by simp)]
    exact ih
  | capture _ ih =>
    rw [List.count_append, count_none_map_some, List.count_cons_self, Nat.zero_add]
    exact Nat.le_succ_of_le ih

/-- With as many marks as hits nothing was captured. -/
theorem Refines.eq_of_count_eq {t : List Char} {cut marks : List (Option Char)}
    (h : Refines t cut marks) (hcount : cut.count none = marks.count none) : cut = marks := by
  induction h with
  | nil => rfl
  | hit _ ih =>
    rw [List.count_cons_self, List.count_cons_self] at hcount
    rw [ih (Nat.succ.inj hcount)]
  | char _ ih =>
    rw [List.count_cons_of_ne (by simp), List.count_cons_of_ne (by simp)] at hcount
    rw [ih hcount]
  | capture h _ =>
    rw [List.count_append, count_none_map_some, List.count_cons_self, Nat.zero_add] at hcount
    have hle := h.count_le
    omega

/-- The two texts differ in length by what was captured. -/
theorem Refines.exists_length_fill {t : List Char} {cut marks : List (Option Char)}
    (h : Refines t cut marks) (inserted : List Char) :
    ∃ k, cut.count none = marks.count none + k ∧
      (fill inserted cut).length + k * t.length =
        (fill inserted marks).length + k * inserted.length := by
  induction h with
  | nil => exact ⟨0, rfl, by rw [Nat.zero_mul, Nat.zero_mul]⟩
  | hit _ ih =>
    obtain ⟨k, hcount, hlength⟩ := ih
    refine ⟨k, ?_, ?_⟩
    · rw [List.count_cons_self, List.count_cons_self]
      omega
    · rw [fill, fill, List.length_append, List.length_append]
      omega
  | char _ ih =>
    obtain ⟨k, hcount, hlength⟩ := ih
    refine ⟨k, ?_, ?_⟩
    · rw [List.count_cons_of_ne (by simp), List.count_cons_of_ne (by simp)]
      exact hcount
    · rw [fill, fill, List.length_cons, List.length_cons]
      omega
  | capture _ ih =>
    obtain ⟨k, hcount, hlength⟩ := ih
    refine ⟨k + 1, ?_, ?_⟩
    · rw [List.count_append, count_none_map_some, List.count_cons_self]
      omega
    · rw [fill, fill_append, fill_map_some, List.length_append, List.length_append, Nat.succ_mul,
        Nat.succ_mul]
      omega

/-- Where something as long as the placeholder is inserted, the places of the two texts agree. -/
theorem Refines.eq_or_eq_of_length_eq {t inserted : List Char} {cut marks : List (Option Char)}
    (h : Refines t cut marks) (hlength : inserted.length = t.length)
    (hfill : fill inserted cut = fill inserted marks) : inserted = t ∨ cut = marks := by
  induction h with
  | nil => exact Or.inr rfl
  | hit _ ih =>
    rw [fill, fill] at hfill
    exact (ih (List.append_cancel_left hfill)).imp_right (congrArg _)
  | char _ ih =>
    rw [fill, fill, List.cons.injEq] at hfill
    exact (ih hfill.2).imp_right (congrArg _)
  | capture _ _ =>
    rw [fill, fill_append, fill_map_some] at hfill
    exact Or.inl (List.append_inj hfill hlength).1

/-- What is inserted gives the same text at the marks and at the hits only if nothing was captured,
or if the placeholder itself is inserted. -/
theorem Refines.eq_or_eq_of_fill_eq {t inserted : List Char} {cut marks : List (Option Char)}
    (h : Refines t cut marks) (hfill : fill inserted cut = fill inserted marks) :
    inserted = t ∨ cut = marks := by
  obtain ⟨k, hcount, hlength⟩ := h.exists_length_fill inserted
  rw [hfill] at hlength
  cases k with
  | zero => exact Or.inr (h.eq_of_count_eq hcount)
  | succ k =>
    have heq := Nat.eq_of_mul_eq_mul_left (Nat.succ_pos k) (Nat.add_left_cancel hlength)
    exact h.eq_or_eq_of_length_eq heq.symm hfill

/-! ## The marks of a template -/

/-- The placeholders with a name as marks, and the other pieces as they are expanded. -/
def templateMarks (name : List Char) (value? : String → Option String) (parts : List Piece) :
    List (Option Char) :=
  parts.flatMap fun piece =>
    if piece = .placeholder name then [none] else (piece.expand value?).map some

theorem templateMarks_cons (name : List Char) (value? : String → Option String) (piece : Piece)
    (rest : List Piece) :
    templateMarks name value? (piece :: rest) =
      (if piece = .placeholder name then [none] else (piece.expand value?).map some) ++
        templateMarks name value? rest := rfl

theorem count_templateMarks (value? : String → Option String) (parts : List Piece) :
    (templateMarks name value? parts).count none = parts.count (.placeholder name) := by
  induction parts with
  | nil => rfl
  | cons piece rest ih =>
    rw [templateMarks_cons, List.count_append, ih]
    by_cases h : piece = .placeholder name
    · subst h
      rw [if_pos rfl, List.count_cons_self, List.count_cons_self, List.count_nil]
      omega
    · rw [if_neg h, count_none_map_some, List.count_cons_of_ne h, Nat.zero_add]

/-- Inserting a value at the marks is expanding with that value for the name. -/
theorem fill_templateMarks {value? : String → Option String} {value : Option String}
    {inserted : List Char}
    (hinserted : Piece.expand (fun n => if n = String.ofList name then value else value? n)
      (.placeholder name) = inserted) (parts : List Piece) :
    fill inserted (templateMarks name value? parts) =
      parts.flatMap
        (Piece.expand fun n => if n = String.ofList name then value else value? n) := by
  induction parts with
  | nil => rfl
  | cons piece rest ih =>
    rw [templateMarks_cons, fill_append, ih, List.flatMap_cons]
    congr 1
    by_cases h : piece = .placeholder name
    · subst h
      rw [if_pos rfl, hinserted, fill, fill, List.append_nil]
    · rw [if_neg h, fill_map_some]
      cases piece with
      | char c => rfl
      | placeholder other =>
        have hother : String.ofList other ≠ String.ofList name := by
          intro heq
          exact h (congrArg _ (String.ofList_inj.mp heq))
        rw [Piece.expand, Piece.expand, if_neg hother]

/-- A placeholder stands in front of a text exactly if one is closed there. -/
theorem token_prefix_iff (hname : IsName name) {c : Char} {rest : List Char} :
    token name <+: c :: rest ↔ c = opening ∧ name? rest = some name := by
  constructor
  · rintro ⟨tail, htail⟩
    rw [token_eq, List.cons_append, List.cons.injEq, List.append_assoc] at htail
    exact ⟨htail.1.symm, name?_eq_some_iff.mpr ⟨hname, tail, htail.2.symm⟩⟩
  · rintro ⟨rfl, hsome⟩
    obtain ⟨-, tail, rfl⟩ := name?_eq_some_iff.mp hsome
    refine ⟨tail, ?_⟩
    rw [token_eq, List.cons_append, List.append_assoc]
    rfl

/-- Where no placeholder stands in front, the occurrences are those behind. -/
theorem occurrences_cons_of_ne (hname : IsName name) {c : Char} {rest : List Char}
    (h : c = opening → name? rest ≠ some name) :
    occurrences (token name) (c :: rest) = occurrences (token name) rest := by
  have hfalse : (token name).isPrefixOf (c :: rest) = false := by
    rw [Bool.eq_false_iff]
    intro htrue
    obtain ⟨hc, hsome⟩ := (token_prefix_iff hname).mp (List.isPrefixOf_iff_prefix.mp htrue)
    exact h hc hsome
  rw [occurrences, hfalse, if_neg Bool.false_ne_true, Nat.zero_add]

/-- The occurrences of a placeholder in a template are its placeholders with that name. -/
theorem occurrences_pieces (hname : IsName name) (s : List Char) :
    occurrences (token name) s = (pieces s).count (.placeholder name) := by
  induction s using pieces_induction with
  | nil =>
    rw [pieces_nil]
    rfl
  | char c rest hc hpieces ih =>
    have hnone : c = opening → name? rest ≠ some name := by
      intro heq
      rw [hc heq]
      exact Option.some_ne_none name ∘ Eq.symm
    rw [occurrences_cons_of_ne hname hnone, ih, hpieces, List.count_cons_of_ne (by simp)]
  | placeholder other rest hother hpieces ih =>
    have htail : occurrences (token name) (other ++ closing :: rest) =
        occurrences (token name) rest := by
      have happend : other ++ closing :: rest = (other ++ [closing]) ++ rest := by
        rw [List.append_assoc]
        rfl
      rw [happend, occurrences_append_left (opening_notMem_tail hother)]
    rw [hpieces]
    by_cases heq : other = name
    · subst heq
      have htext : opening :: other ++ closing :: rest = token other ++ rest := by
        rw [token_eq, List.cons_append, List.cons_append, List.append_assoc]
        rfl
      rw [htext, occurrences_token_append hname, ih, List.count_cons_self, Nat.add_comm]
    · have hne : opening = opening → name? (other ++ closing :: rest) ≠ some name := by
        intro _
        rw [name?_eq_some_iff.mpr ⟨hother, rest, rfl⟩]
        exact fun h => heq (Option.some_inj.mp h)
      rw [List.cons_append, occurrences_cons_of_ne hname hne, htail, ih, List.count_cons_of_ne]
      exact fun h => heq (Piece.placeholder.inj h)

end TypedClient.PathTemplate

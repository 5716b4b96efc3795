import Mathlib.Data.List.TakeWhile
import TypedClient.Markup

/-!
# Escaped texts

What is shown of a text is lost altogether if the text closes a tag that is not open.  A text that
was escaped is safe from this: every bracket that starts a tag has an odd number of backslashes in
front of it, so no tag is left.  The reason is that escaping puts backslashes only in front of
opening brackets, so that it neither makes a tag nor ends one: what a bracket opens depends on the
text up to the next bracket alone.

* `IsClear`: texts without brackets, which start and end no tag.
* `tagText?_escapeFrom`: escaping what stands behind a bracket keeps the tag that it opens.
* `isText_of_mem_piecesFrom_escapeFrom`: the pieces of an escaped text are no tags.
* `isSome_shown?_append_escape`: a label with an escaped text behind it can be shown.
-/

namespace TypedClient.Markup

/-! ## Brackets -/

/-- The text has no brackets. -/
def IsClear (s : List Char) : Prop := '[' ∉ s ∧ ']' ∉ s

theorem isClear_nil : IsClear [] := ⟨List.not_mem_nil, List.not_mem_nil⟩

theorem IsClear.cons {c : Char} {s : List Char} (hopening : c ≠ '[') (hclosing : c ≠ ']')
    (h : IsClear s) : IsClear (c :: s) := by
  constructor
  · rw [List.mem_cons, not_or]
    exact ⟨hopening.symm, h.1⟩
  · rw [List.mem_cons, not_or]
    exact ⟨hclosing.symm, h.2⟩

theorem IsClear.tail {c : Char} {s : List Char} (h : IsClear (c :: s)) : IsClear s :=
  ⟨fun hmem => h.1 (List.mem_cons_of_mem _ hmem), fun hmem => h.2 (List.mem_cons_of_mem _ hmem)⟩

theorem IsClear.ne_opening {c : Char} {s : List Char} (h : IsClear (c :: s)) : c ≠ '[' := by
  rintro rfl
  exact h.1 List.mem_cons_self

theorem IsClear.ne_closing {c : Char} {s : List Char} (h : IsClear (c :: s)) : c ≠ ']' := by
  rintro rfl
  exact h.2 List.mem_cons_self

theorem IsClear.append {s t : List Char} (hs : IsClear s) (ht : IsClear t) : IsClear (s ++ t) := by
  constructor
  · rw [List.mem_append, not_or]
    exact ⟨hs.1, ht.1⟩
  · rw [List.mem_append, not_or]
    exact ⟨hs.2, ht.2⟩

theorem isClear_backslashes (n : Nat) : IsClear (List.replicate n '\\') := by
  constructor <;> simp

/-- A text has no brackets, or there is a first one, which opens or closes. -/
theorem clear_or_exists_bracket (s : List Char) :
    IsClear s ∨ (∃ u v, IsClear u ∧ s = u ++ '[' :: v) ∨ ∃ u v, IsClear u ∧ s = u ++ ']' :: v := by
  induction s with
  | nil => exact Or.inl isClear_nil
  | cons c s ih =>
    by_cases hopening : c = '['
    · exact Or.inr (Or.inl ⟨[], s, isClear_nil, by rw [hopening]; rfl⟩)
    · by_cases hclosing : c = ']'
      · exact Or.inr (Or.inr ⟨[], s, isClear_nil, by rw [hclosing]; rfl⟩)
      · rcases ih with hclear | ⟨u, v, hu, hs⟩ | ⟨u, v, hu, hs⟩
        · exact Or.inl (hclear.cons hopening hclosing)
        · exact Or.inr (Or.inl ⟨c :: u, v, hu.cons hopening hclosing, by rw [hs]; rfl⟩)
        · exact Or.inr (Or.inr ⟨c :: u, v, hu.cons hopening hclosing, by rw [hs]; rfl⟩)

/-! ## The tag behind a bracket -/

theorem takeWhile_of_isClear {u : List Char} (h : IsClear u) :
    u.takeWhile (fun d => d != '[' && d != ']') = u := by
  rw [List.takeWhile_eq_self_iff]
  intro d hd
  have hopening : d ≠ '[' := by
    rintro rfl
    exact h.1 hd
  have hclosing : d ≠ ']' := by
    rintro rfl
    exact h.2 hd
  simp [hopening, hclosing]

theorem takeWhile_append_bracket {u v : List Char} {c : Char} (h : IsClear u)
    (hc : c = '[' ∨ c = ']') : (u ++ c :: v).takeWhile (fun d => d != '[' && d != ']') = u := by
  have hstops : (c :: v).takeWhile (fun d => d != '[' && d != ']') = [] := by
    rcases hc with rfl | rfl <;> rfl
  rw [List.takeWhile_append, takeWhile_of_isClear h, if_pos rfl, hstops, List.append_nil]

theorem tagText?_of_isClear {u : List Char} (h : IsClear u) : tagText? u = none := by
  cases u with
  | nil => rfl
  | cons c u =>
    rw [tagText?]
    dsimp only
    rw [takeWhile_of_isClear h.tail, List.drop_length]
    simp

theorem tagText?_append_opening {u : List Char} (h : IsClear u) (v : List Char) :
    tagText? (u ++ '[' :: v) = none := by
  cases u with
  | nil => rfl
  | cons c u =>
    rw [List.cons_append, tagText?]
    dsimp only
    rw [takeWhile_append_bracket h.tail (Or.inl rfl), List.drop_left]
    simp

theorem tagText?_append_closing {u : List Char} (h : IsClear u) (v : List Char) :
    tagText? (u ++ ']' :: v) = if u.head?.any startsTag then some u else none := by
  cases u with
  | nil => rfl
  | cons c u =>
    rw [List.cons_append, tagText?]
    dsimp only
    rw [takeWhile_append_bracket h.tail (Or.inr rfl), List.drop_left]
    cases hstarts : startsTag c <;> simp [hstarts]

/-- A tag ends with the first bracket, which closes. -/
theorem exists_eq_of_tagText? {s tag : List Char} (h : tagText? s = some tag) :
    IsClear tag ∧ ∃ v, s = tag ++ ']' :: v := by
  rcases clear_or_exists_bracket s with hclear | ⟨u, v, hu, rfl⟩ | ⟨u, v, hu, rfl⟩
  · rw [tagText?_of_isClear hclear] at h
    cases h
  · rw [tagText?_append_opening hu] at h
    cases h
  · rw [tagText?_append_closing hu] at h
    split at h
    · obtain rfl := Option.some_inj.mp h
      exact ⟨hu, v, rfl⟩
    · cases h

/-! ## Escaping -/

theorem escapeFrom_cons (b : Nat) (c : Char) (s : List Char) :
    escapeFrom b (c :: s) =
      if c = '\\' then escapeFrom (b + 1) s
      else if c = '[' && (tagText? s).isSome then
        List.replicate (2 * b + 1) '\\' ++ c :: escapeFrom 0 s
      else List.replicate b '\\' ++ c :: escapeFrom 0 s := rfl

theorem escapeFrom_backslash (b : Nat) (s : List Char) :
    escapeFrom b ('\\' :: s) = escapeFrom (b + 1) s := by
  rw [escapeFrom_cons, if_pos rfl]

theorem escapeFrom_tag {s tag : List Char} (h : tagText? s = some tag) (b : Nat) :
    escapeFrom b ('[' :: s) = List.replicate (2 * b + 1) '\\' ++ '[' :: escapeFrom 0 s := by
  rw [escapeFrom_cons, if_neg (by decide), if_pos (by rw [h]; rfl)]

theorem escapeFrom_opening {s : List Char} (h : tagText? s = none) (b : Nat) :
    escapeFrom b ('[' :: s) = List.replicate b '\\' ++ '[' :: escapeFrom 0 s := by
  rw [escapeFrom_cons, if_neg (by decide), if_neg (by rw [h]; simp)]

theorem escapeFrom_char {c : Char} (hbackslash : c ≠ '\\') (hopening : c ≠ '[') (b : Nat)
    (s : List Char) : escapeFrom b (c :: s) = List.replicate b '\\' ++ c :: escapeFrom 0 s := by
  rw [escapeFrom_cons, if_neg hbackslash, if_neg (by simp [hopening])]

theorem escapeFrom_append_closing {u : List Char} (h : IsClear u) (b : Nat) (v : List Char) :
    escapeFrom b (u ++ ']' :: v) = List.replicate b '\\' ++ (u ++ ']' :: escapeFrom 0 v) := by
  induction u generalizing b with
  | nil =>
    rw [List.nil_append, List.nil_append]
    exact escapeFrom_char (by decide) (by decide) b v
  | cons c u ih =>
    rw [List.cons_append]
    by_cases hbackslash : c = '\\'
    · subst hbackslash
      rw [escapeFrom_backslash, ih h.tail, List.replicate_succ', List.append_assoc]
      rfl
    · rw [escapeFrom_char hbackslash h.ne_opening, ih h.tail]
      rfl

theorem exists_escapeFrom_append_opening {u : List Char} (h : IsClear u) (b : Nat)
    (v : List Char) : ∃ x y, IsClear x ∧ escapeFrom b (u ++ '[' :: v) = x ++ '[' :: y := by
  induction u generalizing b with
  | nil =>
    rw [List.nil_append]
    cases htag : tagText? v with
    | none => exact ⟨_, _, isClear_backslashes b, escapeFrom_opening htag b⟩
    | some tag => exact ⟨_, _, isClear_backslashes (2 * b + 1), escapeFrom_tag htag b⟩
  | cons c u ih =>
    rw [List.cons_append]
    by_cases hbackslash : c = '\\'
    · subst hbackslash
      rw [escapeFrom_backslash]
      exact ih h.tail (b + 1)
    · obtain ⟨x, y, hx, heq⟩ := ih h.tail 0
      refine ⟨List.replicate b '\\' ++ c :: x, y,
        (isClear_backslashes b).append (hx.cons h.ne_opening h.ne_closing), ?_⟩
      rw [escapeFrom_char hbackslash h.ne_opening, heq, List.append_assoc, List.cons_append]

theorem isClear_escapeFrom {u : List Char} (h : IsClear u) (b : Nat) :
    IsClear (escapeFrom b u) := by
  induction u generalizing b with
  | nil =>
    rw [escapeFrom]
    refine (isClear_backslashes b).append ?_
    split
    · exact isClear_backslashes 1
    · exact isClear_nil
  | cons c u ih =>
    by_cases hbackslash : c = '\\'
    · subst hbackslash
      rw [escapeFrom_backslash]
      exact ih h.tail (b + 1)
    · rw [escapeFrom_char hbackslash h.ne_opening]
      exact (isClear_backslashes b).append ((ih h.tail 0).cons h.ne_opening h.ne_closing)

/-- Escaping what stands behind a bracket keeps the tag that the bracket opens. -/
theorem tagText?_escapeFrom (s : List Char) : tagText? (escapeFrom 0 s) = tagText? s := by
  rcases clear_or_exists_bracket s with hclear | ⟨u, v, hu, rfl⟩ | ⟨u, v, hu, rfl⟩
  · rw [tagText?_of_isClear hclear, tagText?_of_isClear (isClear_escapeFrom hclear 0)]
  · obtain ⟨x, y, hx, heq⟩ := exists_escapeFrom_append_opening hu 0 v
    rw [heq, tagText?_append_opening hx, tagText?_append_opening hu]
  · rw [escapeFrom_append_closing hu, List.replicate_zero, List.nil_append,
      tagText?_append_closing hu, tagText?_append_closing hu]

/-! ## The pieces of an escaped text -/

/-- The piece is no tag. -/
def Piece.IsText : Piece → Prop
  | .text _ => True
  | .tag _ => False

theorem piecesFrom_cons (plain : List Char) (b : Nat) (c : Char) (s : List Char) :
    piecesFrom plain b 0 (c :: s) =
      if c = '\\' then piecesFrom plain (b + 1) 0 s
      else
        match (if c = '[' then tagText? s else none) with
        | some tag => .text plain.reverse :: piecesOfTag b tag ++ piecesFrom [] 0 (tag.length + 1) s
        | none => piecesFrom (c :: List.replicate b '\\' ++ plain) 0 0 s := rfl

theorem piecesFrom_backslashes (plain : List Char) (b n : Nat) (s : List Char) :
    piecesFrom plain b 0 (List.replicate n '\\' ++ s) = piecesFrom plain (b + n) 0 s := by
  induction n generalizing b with
  | zero => rfl
  | succ n ih =>
    rw [List.replicate_succ, List.cons_append, piecesFrom_cons, if_pos rfl, ih]
    congr 1
    omega

theorem piecesFrom_skip (plain : List Char) (b n : Nat) (s : List Char) :
    piecesFrom plain b n s = piecesFrom plain b 0 (s.drop n) := by
  induction n generalizing s with
  | zero => rfl
  | succ n ih =>
    cases s with
    | nil => rfl
    | cons c s => rw [piecesFrom, ih, List.drop_succ_cons]

theorem piecesFrom_tag {s tag : List Char} (h : tagText? s = some tag) (plain : List Char)
    (b : Nat) : piecesFrom plain b 0 ('[' :: s) =
      .text plain.reverse :: piecesOfTag b tag ++
        piecesFrom [] 0 0 (s.drop (tag.length + 1)) := by
  rw [piecesFrom_cons, if_neg (by decide), if_pos rfl, h]
  dsimp only
  rw [piecesFrom_skip]

theorem piecesFrom_opening {s : List Char} (h : tagText? s = none) (plain : List Char) (b : Nat) :
    piecesFrom plain b 0 ('[' :: s) =
      piecesFrom ('[' :: List.replicate b '\\' ++ plain) 0 0 s := by
  rw [piecesFrom_cons, if_neg (by decide), if_pos rfl, h]

theorem piecesFrom_char {c : Char} (hbackslash : c ≠ '\\') (hopening : c ≠ '[')
    (plain : List Char) (b : Nat) (s : List Char) : piecesFrom plain b 0 (c :: s) =
      piecesFrom (c :: List.replicate b '\\' ++ plain) 0 0 s := by
  rw [piecesFrom_cons, if_neg hbackslash, if_neg hopening]

/-- A tag behind an odd number of backslashes is text. -/
theorem isText_of_mem_piecesOfTag {b : Nat} {tag : List Char} {p : Piece}
    (h : p ∈ piecesOfTag (2 * b + 1) tag) : p.IsText := by
  have hodd : (2 * b + 1) % 2 = 1 := by omega
  rw [piecesOfTag, if_pos hodd] at h
  rcases List.mem_cons.mp h with rfl | h
  · trivial
  · obtain rfl := List.mem_singleton.mp h
    trivial

/-- No piece of an escaped text is a tag. -/
theorem isText_of_mem_piecesFrom_escapeFrom {p : Piece} : ∀ (s : List Char) (b : Nat)
    (plain : List Char), p ∈ piecesFrom plain 0 0 (escapeFrom b s) → p.IsText
  | [], b, plain, h => by
    rw [escapeFrom, piecesFrom_backslashes] at h
    have hlast : p ∈ piecesFrom plain (0 + b) 0 (if b = 1 then List.replicate 1 '\\' else []) := h
    split at hlast
    · rw [← List.append_nil (List.replicate 1 '\\'), piecesFrom_backslashes] at hlast
      obtain rfl := List.mem_singleton.mp hlast
      trivial
    · obtain rfl := List.mem_singleton.mp hlast
      trivial
  | c :: s, b, plain, h => by
    by_cases hbackslash : c = '\\'
    · subst hbackslash
      rw [escapeFrom_backslash] at h
      exact isText_of_mem_piecesFrom_escapeFrom s (b + 1) plain h
    · by_cases hopening : c = '['
      · subst hopening
        cases htag : tagText? s with
        | none =>
          rw [escapeFrom_opening htag, piecesFrom_backslashes,
            piecesFrom_opening (by rw [tagText?_escapeFrom, htag])] at h
          exact isText_of_mem_piecesFrom_escapeFrom s 0 _ h
        | some tag =>
          -- the tag is the same in the escaped text, and what follows is escaped anew
          obtain ⟨hclear, v, rfl⟩ := exists_eq_of_tagText? htag
          have hrest : (escapeFrom 0 (tag ++ ']' :: v)).drop (tag.length + 1) = escapeFrom 0 v := by
            rw [escapeFrom_append_closing hclear, List.replicate_zero, List.nil_append,
              List.drop_append, List.drop_eq_nil_of_le (Nat.le_succ _), List.nil_append]
            have hone : tag.length + 1 - tag.length = 1 := by omega
            rw [hone]
            rfl
          rw [escapeFrom_tag htag, piecesFrom_backslashes,
            piecesFrom_tag (by rw [tagText?_escapeFrom, htag]), hrest, Nat.zero_add] at h
          rcases List.mem_append.mp h with h | h
          · rcases List.mem_cons.mp h with rfl | h
            · trivial
            · exact isText_of_mem_piecesOfTag h
          · exact isText_of_mem_piecesFrom_escapeFrom v 0 [] h
      · rw [escapeFrom_char hbackslash hopening, piecesFrom_backslashes,
          piecesFrom_char hbackslash hopening] at h
        exact isText_of_mem_piecesFrom_escapeFrom s 0 _ h
termination_by s => s.length
decreasing_by all_goals (subst_vars; simp; try omega)

/-! ## What is shown -/

/-- Pieces that are no tags can be shown, whichever tags are open. -/
theorem isSome_shownPieces? {isOpen : List String} {pieces : List Piece}
    (h : ∀ p ∈ pieces, p.IsText) : (shownPieces? isOpen pieces).isSome := by
  induction pieces with
  | nil => rfl
  | cons p rest ih =>
    have hp : p.IsText := h p List.mem_cons_self
    cases p with
    | text s =>
      rw [shownPieces?, Option.isSome_map]
      exact ih fun q hq => h q (List.mem_cons_of_mem _ hq)
    | tag s => exact absurd hp not_false

/-- Pieces that can be shown can be shown with pieces behind them that are no tags. -/
theorem isSome_shownPieces?_append {isOpen : List String} {front rest : List Piece}
    (hfront : (shownPieces? isOpen front).isSome) (hrest : ∀ p ∈ rest, p.IsText) :
    (shownPieces? isOpen (front ++ rest)).isSome := by
  induction front generalizing isOpen with
  | nil => exact isSome_shownPieces? hrest
  | cons p front ih =>
    rw [List.cons_append]
    cases p with
    | text s =>
      rw [shownPieces?, Option.isSome_map] at hfront ⊢
      exact ih hfront
    | tag t =>
      rw [shownPieces?] at hfront ⊢
      cases hafter : afterTag? isOpen t with
      | none =>
        rw [hafter] at hfront
        cases hfront
      | some now =>
        rw [hafter, Option.bind_some] at hfront
        exact ih hfront

/-- A label that can be shown, read up to its end, can be shown with an escaped text behind it. -/
theorem isSome_shown?_append_escape {label : String} {front : List Piece} {plain : List Char}
    (hlabel : ∀ s, pieces (label.toList ++ s) = front ++ piecesFrom plain 0 0 s)
    (hfront : (shownPieces? [] front).isSome) (s : String) :
    (shown? (label ++ escape s)).isSome := by
  have hescape : (escape s).toList = escapeFrom 0 s.toList := String.toList_ofList
  rw [shown?, Option.isSome_map, String.toList_append, hescape, hlabel]
  exact isSome_shownPieces?_append hfront fun p hp =>
    isText_of_mem_piecesFrom_escapeFrom s.toList 0 plain hp

end TypedClient.Markup

import TypedClient.Proofs.Markup.Shown

/-!
# What is shown of an escaped text

Escaping doubles the backslashes in front of a tag and adds one, so that all of them and the tag are
shown.  It leaves brackets that open no tag alone, and with them a backslash in front of such a
bracket, which is lost when the text is shown.

* `escapeFrom_append_withTag`: an escaped text from tag to tag.
* `OnlyTagsEscaped`: every bracket with a backslash in front opens a tag.
* `exists_shown_escaped`: what is shown of an escaped text is the text exactly in that case.
-/

namespace TypedClient.Markup

variable {s u w x y tag : List Char} {k : ℕ} {c : Char} {isOpen : List String}

/-! ## Escaping from tag to tag -/

theorem escapeFrom_backslashes (b n : ℕ) (s : List Char) :
    escapeFrom b (List.replicate n '\\' ++ s) = escapeFrom (b + n) s := by
  induction n generalizing b with
  | zero => rfl
  | succ n ih =>
    rw [List.replicate_succ, List.cons_append, escapeFrom_backslash, ih, Nat.add_right_comm,
      Nat.add_assoc]

/-- The front of a text is left alone if none of its brackets opens a tag; what stands behind it is
escaped by itself. -/
theorem escapeFrom_append (hu : ¬ HasTag u) (hlast : u.getLast? ≠ some '\\')
    (hy : ∀ x, OpensTag (x ++ y) → OpensTag x) (b : ℕ) (hb : u = [] → b = 0) :
    escapeFrom b (u ++ y) = List.replicate b '\\' ++ (u ++ escapeFrom 0 y) := by
  induction u generalizing b with
  | nil => rw [hb rfl]; rfl
  | cons c u ih =>
    rw [hasTag_cons_iff, not_or] at hu
    have hlast' := getLast?_ne_of_cons hlast
    by_cases hbackslash : c = '\\'
    · subst hbackslash
      have hne : u ≠ [] := by
        rintro rfl
        exact hlast rfl
      rw [List.cons_append, escapeFrom_backslash, ih hu.2 hlast' (b + 1) fun h => absurd h hne,
        backslashes_succ_append]
      rfl
    · have hread : escapeFrom b (c :: (u ++ y)) =
          List.replicate b '\\' ++ c :: escapeFrom 0 (u ++ y) := by
        by_cases hopening : c = '['
        · subst hopening
          exact escapeFrom_opening (tagText?_eq_none_iff.mpr fun hs => hu.1 ⟨rfl, hy u hs⟩) b
        · exact escapeFrom_char hbackslash hopening b _
      rw [List.cons_append, hread, ih hu.2 hlast' 0 fun _ => rfl]
      rfl

/-- A text without a tag is left alone. -/
theorem escapeFrom_of_not_hasTag (hs : ¬ HasTag s) (hlast : s.getLast? ≠ some '\\') :
    escapeFrom 0 s = s := by
  have h := escapeFrom_append (y := []) hs hlast (fun x hx => by rwa [List.append_nil] at hx) 0
    fun _ => rfl
  rw [List.append_nil] at h
  rw [h]
  exact List.append_nil s

/-- The first tag of a text has its backslashes doubled and one more in front. -/
theorem escapeFrom_append_withTag (hu : ¬ HasTag u) (hlast : u.getLast? ≠ some '\\')
    (htag : IsTag tag) :
    escapeFrom 0 (u ++ withTag k tag w) = u ++ withTag (2 * k + 1) tag (escapeFrom 0 w) := by
  rw [escapeFrom_append hu hlast (fun _ => opensTag_append_withTag_iff.mp) 0 fun _ => rfl,
    withTag, escapeFrom_backslashes, Nat.zero_add, escapeFrom_tag (htag.tagText?_eq w),
    escapeFrom_append_closing htag.clear]
  rfl

/-! ## Brackets with a backslash in front -/

/-- Every bracket with a backslash in front opens a tag. -/
def OnlyTagsEscaped (s : List Char) : Prop := ∀ u v, s = u ++ '\\' :: '[' :: v → OpensTag v

theorem onlyTagsEscaped_cons_iff : OnlyTagsEscaped (c :: s) ↔
    (∀ v, c = '\\' → s = '[' :: v → OpensTag v) ∧ OnlyTagsEscaped s := by
  constructor
  · intro h
    refine ⟨fun v hc hs => h [] v ?_, fun u v hs => h (c :: u) v ?_⟩
    · rw [hc, hs]
      rfl
    · rw [hs]
      rfl
  · rintro ⟨hfirst, hrest⟩ u v h
    cases u with
    | nil =>
      obtain ⟨hc, hs⟩ := List.cons.inj h
      exact hfirst v hc hs
    | cons d u => exact hrest u v (List.cons.inj h).2

theorem onlyTagsEscaped_cons_of_ne (hc : c ≠ '\\') :
    OnlyTagsEscaped (c :: s) ↔ OnlyTagsEscaped s := by
  rw [onlyTagsEscaped_cons_iff, and_iff_right fun v h => absurd h hc]

/-- Without a tag there may be no bracket with a backslash in front. -/
theorem onlyTagsEscaped_iff_of_not_hasTag (hs : ¬ HasTag s) :
    OnlyTagsEscaped s ↔ ¬ ['\\', '['] <:+: s := by
  constructor
  · rintro h ⟨u, v, rfl⟩
    refine hs ⟨u ++ ['\\'], v, by simp, h u v ?_⟩
    rw [List.append_assoc]
    rfl
  · rintro h u v rfl
    exact absurd ⟨u, v, by simp⟩ h

theorem onlyTagsEscaped_append_of_notMem (hx : '[' ∉ x) (hy : y.head? ≠ some '[') :
    OnlyTagsEscaped (x ++ y) ↔ OnlyTagsEscaped y := by
  induction x with
  | nil => rfl
  | cons c x ih =>
    rw [List.mem_cons, not_or] at hx
    rw [List.cons_append, onlyTagsEscaped_cons_iff, ih hx.2, and_iff_right]
    intro v _ h
    cases x with
    | nil => exact absurd (congrArg List.head? h) hy
    | cons d x =>
      rw [List.mem_cons, not_or] at hx
      exact absurd (List.cons.inj h).1.symm hx.2.1

theorem onlyTagsEscaped_withTag_iff (htag : IsTag tag) :
    OnlyTagsEscaped (withTag k tag w) ↔ OnlyTagsEscaped w := by
  have hrest : OnlyTagsEscaped ('[' :: (tag ++ ']' :: w)) ↔ OnlyTagsEscaped w := by
    rw [onlyTagsEscaped_cons_of_ne (by decide),
      onlyTagsEscaped_append_of_notMem htag.clear.1 (by simp),
      onlyTagsEscaped_cons_of_ne (by decide)]
  induction k with
  | zero => exact hrest
  | succ k ih =>
    have hsucc : withTag (k + 1) tag w = '\\' :: withTag k tag w := rfl
    rw [hsucc]
    refine onlyTagsEscaped_cons_iff.trans ((and_iff_right fun v _ h => ?_).trans ih)
    cases k with
    | zero =>
      obtain ⟨-, rfl⟩ := List.cons.inj h
      exact ⟨tag, w, htag, rfl⟩
    | succ k => exact absurd (List.cons.inj h).1 (by decide)

/-- In front of the first tag there may be no bracket with a backslash in front. -/
theorem onlyTagsEscaped_append_withTag_iff (hu : ¬ HasTag u) (hlast : u.getLast? ≠ some '\\')
    (htag : IsTag tag) : OnlyTagsEscaped (u ++ withTag k tag w) ↔
      ¬ ['\\', '['] <:+: u ∧ OnlyTagsEscaped w := by
  induction u with
  | nil => simp [onlyTagsEscaped_withTag_iff htag]
  | cons c u ih =>
    rw [hasTag_cons_iff, not_or] at hu
    rw [List.cons_append, onlyTagsEscaped_cons_iff, Text.pair_infix_cons_iff, not_or, and_assoc]
    rcases eq_or_ne u [] with rfl | hne
    · have hc : '\\' ≠ c := by
        rintro rfl
        exact hlast rfl
      rw [← ih hu.2 (by simp)]
      refine and_congr_left fun _ => iff_of_true (fun v h => absurd h.symm hc) (fun h => hc h.1)
    · rw [← ih hu.2 (getLast?_ne_of_cons hlast)]
      refine and_congr_left fun _ => ?_
      obtain ⟨e, u, rfl⟩ := List.exists_cons_of_ne_nil hne
      constructor
      · rintro h ⟨hc, hhead⟩
        obtain rfl := Option.some_inj.mp hhead
        have hopens := opensTag_append_withTag_iff.mp (h _ hc.symm rfl)
        exact hu.2 (hasTag_cons_iff.mpr (Or.inl ⟨rfl, hopens⟩))
      · intro h v hc heq
        exact absurd ⟨hc.symm, congrArg some (List.cons.inj heq).1⟩ h

/-! ## What is shown -/

/-- A tag with an odd number of backslashes in front shows as the tag with half of the others. -/
theorem shownPieces?_escapedTag (htag : IsTag tag) (ps : List Piece) :
    shownPieces? isOpen (piecesOfTag (2 * k + 1) tag ++ ps) =
      (shownPieces? isOpen ps).map fun t => withTag k tag t := by
  have hodd : (2 * k + 1) % 2 = 1 := by omega
  have hhalf : (2 * k + 1) / 2 = k := by omega
  rw [piecesOfTag, if_pos hodd, hhalf, List.cons_append, List.cons_append, List.nil_append,
    shownPieces?, shownPieces?, unescaped_backslashes, unescaped_tag htag, Option.map_map]
  refine congrArg (fun f => Option.map f (shownPieces? isOpen ps)) (funext fun t => ?_)
  simp [withTag]

/-- What is shown of an escaped text that does not end with a backslash is not longer than the text,
and it is the text exactly if every bracket with a backslash in front opens a tag. -/
theorem exists_shown_escaped (isOpen : List String) (hlast : s.getLast? ≠ some '\\') :
    ∃ t, shownPieces? isOpen (pieces (escapeFrom 0 s)) = some t ∧ t.length ≤ s.length ∧
      (t = s ↔ OnlyTagsEscaped s) := by
  induction s using tag_induction with
  | plain s hs =>
    refine ⟨unescaped s, ?_, length_unescaped_le s, ?_⟩
    · rw [escapeFrom_of_not_hasTag hs hlast, shown_of_not_hasTag hs]
    · rw [unescaped_eq_self_iff, onlyTagsEscaped_iff_of_not_hasTag hs]
  | tag u k tag w hu hu' htag ih =>
    obtain ⟨t, ht, hle, hiff⟩ := ih (getLast?_ne_of_append_withTag hlast)
    have hplain := length_unescaped_le u
    refine ⟨unescaped u ++ withTag k tag t, ?_, ?_, ?_⟩
    · rw [escapeFrom_append_withTag hu hu' htag, pieces_first_tag hu hu' htag, shownPieces?,
        shownPieces?_escapedTag htag, ht]
      rfl
    · rw [List.length_append, List.length_append, length_withTag, length_withTag]
      omega
    · rw [onlyTagsEscaped_append_withTag_iff hu hu' htag, ← unescaped_eq_self_iff, ← hiff]
      constructor
      · intro h
        -- neither part is longer than it was, so neither is shorter
        have hlength := congrArg List.length h
        rw [List.length_append, List.length_append, length_withTag, length_withTag] at hlength
        obtain ⟨hfront, hbehind⟩ := List.append_inj h (by omega)
        rw [← List.nil_append t, ← List.nil_append w, ← withTag_append, ← withTag_append]
          at hbehind
        exact ⟨hfront, List.append_cancel_left hbehind⟩
      · rintro ⟨hfront, rfl⟩
        rw [hfront]

/-- An escaped text shows as the text itself exactly if every bracket with a backslash in front
opens a tag. -/
theorem shown_escaped_eq_self_iff (hlast : s.getLast? ≠ some '\\') :
    shownPieces? isOpen (pieces (escapeFrom 0 s)) = some s ↔ OnlyTagsEscaped s := by
  obtain ⟨t, ht, -, hiff⟩ := exists_shown_escaped isOpen hlast
  rw [ht, Option.some_inj, hiff]

end TypedClient.Markup

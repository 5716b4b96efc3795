import TypedClient.Proofs.Markup
import TypedClient.Proofs.Text.Parts

/-!
# What is shown of a text

A text is read from tag to tag: what stands in front of the first one is a piece of plain text, and
what stands behind it is read by itself.  A tag never shows as it is written.  It vanishes, or if it
has a backslash in front of it, the backslash does.  In plain text a backslash vanishes in front of
a bracket.  Nothing is ever added, so a text shows as it is written exactly if it has neither a tag
nor a bracket with a backslash in front.

* `IsTag`, `OpensTag`, `HasTag`: the tags of a text.
* `withTag`, `tag_induction`: texts from tag to tag.
* `pieces_append_withTag`: what stands behind a tag is read by itself.
* `length_shown_le`: what is shown is not longer than the text, and shorter if there is a tag.
* `IsVerbatim`, `shown_eq_self_iff`: the texts that show as they are written.
* `shown_append_closing_iff`: the texts that do so with a tag behind them.
* `shown_word`, `shown_styled_iff`: words and texts in a style.
-/

namespace TypedClient.Markup

variable {s t u v w x y tag : List Char} {b k : ℕ} {c : Char} {isOpen now : List String}

/-! ## Tags -/

/-- The characters between the brackets of a tag. -/
@[mk_iff]
structure IsTag (tag : List Char) : Prop where
  clear : IsClear tag
  starts : tag.head?.any startsTag = true

instance : DecidablePred IsClear := fun _ => inferInstanceAs (Decidable (_ ∧ _))

instance : DecidablePred IsTag := fun tag => decidable_of_iff' _ (isTag_iff tag)

/-- A bracket in front of the text opens a tag. -/
def OpensTag (s : List Char) : Prop := ∃ tag rest, IsTag tag ∧ s = tag ++ ']' :: rest

/-- A tag stands in the text. -/
def HasTag (s : List Char) : Prop := ∃ u v, s = u ++ '[' :: v ∧ OpensTag v

theorem IsTag.tagText?_eq (h : IsTag tag) (rest : List Char) :
    tagText? (tag ++ ']' :: rest) = some tag := by
  rw [tagText?_append_closing h.clear, if_pos h.starts]

theorem isTag_of_tagText? (h : tagText? s = some tag) :
    IsTag tag ∧ ∃ rest, s = tag ++ ']' :: rest := by
  obtain ⟨hclear, rest, rfl⟩ := exists_eq_of_tagText? h
  rw [tagText?_append_closing hclear] at h
  split at h
  · rename_i hstarts
    exact ⟨⟨hclear, hstarts⟩, rest, rfl⟩
  · cases h

theorem isSome_tagText?_iff : (tagText? s).isSome ↔ OpensTag s := by
  constructor
  · intro h
    obtain ⟨tag, htag⟩ := Option.isSome_iff_exists.mp h
    obtain ⟨hisTag, rest, hs⟩ := isTag_of_tagText? htag
    exact ⟨tag, rest, hisTag, hs⟩
  · rintro ⟨tag, rest, htag, rfl⟩
    rw [htag.tagText?_eq]
    rfl

theorem tagText?_eq_none_iff : tagText? s = none ↔ ¬ OpensTag s := by
  rw [← isSome_tagText?_iff, Option.not_isSome_iff_eq_none]

theorem not_hasTag_nil : ¬ HasTag [] := by
  rintro ⟨u, v, h, -⟩
  exact List.append_ne_nil_of_right_ne_nil _ (List.cons_ne_nil _ _) h.symm

theorem hasTag_cons_iff : HasTag (c :: s) ↔ (c = '[' ∧ OpensTag s) ∨ HasTag s := by
  constructor
  · rintro ⟨u, v, h, hv⟩
    cases u with
    | nil =>
      obtain ⟨rfl, rfl⟩ := List.cons.inj h
      exact Or.inl ⟨rfl, hv⟩
    | cons d u =>
      obtain ⟨-, rfl⟩ := List.cons.inj h
      exact Or.inr ⟨u, v, rfl, hv⟩
  · rintro (⟨rfl, hs⟩ | ⟨u, v, rfl, hv⟩)
    · exact ⟨[], s, rfl, hs⟩
    · exact ⟨c :: u, v, rfl, hv⟩

/-! ## From tag to tag -/

/-- A tag with backslashes in front of it and a text behind it. -/
def withTag (k : ℕ) (tag w : List Char) : List Char :=
  List.replicate k '\\' ++ '[' :: (tag ++ ']' :: w)

theorem withTag_append (k : ℕ) (tag w v : List Char) :
    withTag k tag w ++ v = withTag k tag (w ++ v) := by
  rw [withTag, withTag, List.append_assoc, List.cons_append, List.append_assoc, List.cons_append]

/-- What stands behind a tag ends like the whole text. -/
theorem getLast?_ne_of_append_withTag (h : (u ++ withTag k tag w).getLast? ≠ some '\\') :
    w.getLast? ≠ some '\\' := by
  intro hw
  refine h ?_
  rw [← List.nil_append w, ← withTag_append, ← List.append_assoc, List.getLast?_append, hw,
    Option.some_or]

/-- A tag that stands behind a text opens none of the tags in it. -/
theorem opensTag_append_withTag_iff : OpensTag (x ++ withTag k tag w) ↔ OpensTag x := by
  rw [← isSome_tagText?_iff, ← isSome_tagText?_iff, withTag]
  rcases clear_or_exists_bracket x with hclear | ⟨u, v, hu, rfl⟩ | ⟨u, v, hu, rfl⟩
  · rw [← List.append_assoc, tagText?_append_opening (hclear.append (isClear_backslashes k)),
      tagText?_of_isClear hclear]
  · rw [List.append_assoc, List.cons_append, tagText?_append_opening hu,
      tagText?_append_opening hu]
  · rw [List.append_assoc, List.cons_append, tagText?_append_closing hu,
      tagText?_append_closing hu]

theorem getLast?_cons_ne (hs : s ≠ []) : (c :: s).getLast? = s.getLast? := by
  obtain ⟨d, s, rfl⟩ := List.exists_cons_of_ne_nil hs
  exact List.getLast?_cons_cons

theorem getLast?_ne_of_cons (h : (c :: s).getLast? ≠ some '\\') : s.getLast? ≠ some '\\' := by
  rcases eq_or_ne s [] with rfl | hne
  · simp
  · rwa [getLast?_cons_ne hne] at h

/-- A text with a tag has a first one, in front of which all backslashes are counted. -/
theorem exists_first_tag (h : HasTag s) :
    ∃ u k tag w, s = u ++ withTag k tag w ∧ ¬ HasTag u ∧ u.getLast? ≠ some '\\' ∧ IsTag tag := by
  induction s with
  | nil => exact absurd h not_hasTag_nil
  | cons c s ih =>
    by_cases hfirst : c = '[' ∧ OpensTag s
    · obtain ⟨rfl, tag, rest, htag, rfl⟩ := hfirst
      exact ⟨[], 0, tag, rest, rfl, not_hasTag_nil, by simp, htag⟩
    · obtain ⟨u, k, tag, w, rfl, hu, hlast, htag⟩ := ih ((hasTag_cons_iff.mp h).resolve_left hfirst)
      rcases eq_or_ne u [] with rfl | hne
      · by_cases hc : c = '\\'
        · exact ⟨[], k + 1, tag, w, by rw [hc]; rfl, hu, by simp, htag⟩
        · refine ⟨[c], k, tag, w, rfl, ?_, by simpa using hc, htag⟩
          rw [hasTag_cons_iff]
          rintro (⟨hc', hopens⟩ | hnil)
          · exact hfirst ⟨hc', opensTag_append_withTag_iff.mpr hopens⟩
          · exact hu hnil
      · refine ⟨c :: u, k, tag, w, rfl, ?_, by rwa [getLast?_cons_ne hne], htag⟩
        rw [hasTag_cons_iff]
        rintro (⟨hc, hopens⟩ | hrest)
        · exact hfirst ⟨hc, opensTag_append_withTag_iff.mpr hopens⟩
        · exact hu hrest

theorem length_withTag : (withTag k tag w).length = k + (tag.length + 2) + w.length := by
  rw [withTag, List.length_append, List.length_replicate, List.length_cons, List.length_append,
    List.length_cons]
  omega

/-- Texts from tag to tag: what holds of texts without a tag, and of a text with a tag behind it if
it holds of what stands behind the tag, holds of all texts. -/
theorem tag_induction {P : List Char → Prop} (plain : ∀ s, ¬ HasTag s → P s)
    (tag : ∀ u k tag w, ¬ HasTag u → u.getLast? ≠ some '\\' → IsTag tag → P w →
      P (u ++ withTag k tag w)) (s : List Char) : P s := by
  by_cases h : HasTag s
  · obtain ⟨u, k, tagged, w, rfl, hu, hlast, htag⟩ := exists_first_tag h
    exact tag u k tagged w hu hlast htag (tag_induction plain tag w)
  · exact plain s h
termination_by s.length
decreasing_by
  subst_vars
  rw [List.length_append, length_withTag]
  omega

/-! ## Pieces -/

theorem reverse_cons_backslashes_append (plain s : List Char) :
    (c :: List.replicate b '\\' ++ plain).reverse ++ s =
      plain.reverse ++ (List.replicate b '\\' ++ c :: s) := by
  simp

theorem backslashes_succ_append : List.replicate (b + 1) '\\' ++ s =
    List.replicate b '\\' ++ '\\' :: s := by
  rw [List.replicate_succ', List.append_assoc]
  rfl

/-- A text without a tag is one piece. -/
theorem piecesFrom_of_not_hasTag (h : ¬ HasTag s) (plain : List Char) (b : ℕ) :
    piecesFrom plain b 0 s = [.text (plain.reverse ++ (List.replicate b '\\' ++ s))] := by
  induction s generalizing plain b with
  | nil => rw [piecesFrom, List.append_nil]
  | cons c s ih =>
    rw [hasTag_cons_iff, not_or] at h
    by_cases hbackslash : c = '\\'
    · rw [piecesFrom_cons, if_pos hbackslash, ih h.2, backslashes_succ_append, hbackslash]
    · have hread : piecesFrom plain b 0 (c :: s) =
          piecesFrom (c :: List.replicate b '\\' ++ plain) 0 0 s := by
        by_cases hopening : c = '['
        · subst hopening
          exact piecesFrom_opening (tagText?_eq_none_iff.mpr fun hs => h.1 ⟨rfl, hs⟩) plain b
        · exact piecesFrom_char hbackslash hopening plain b s
      rw [hread, ih h.2, List.replicate_zero, List.nil_append, reverse_cons_backslashes_append]

theorem pieces_of_not_hasTag (h : ¬ HasTag s) : pieces s = [.text s] :=
  piecesFrom_of_not_hasTag h [] 0

/-- The text in front of the first tag is one piece. -/
theorem piecesFrom_append_withTag (hu : ¬ HasTag u) (hlast : u.getLast? ≠ some '\\')
    (htag : IsTag tag) (plain : List Char) (b : ℕ) (hb : u = [] → b = 0) :
    piecesFrom plain b 0 (u ++ withTag k tag w) =
      .text (plain.reverse ++ (List.replicate b '\\' ++ u)) ::
        (piecesOfTag k tag ++ pieces w) := by
  induction u generalizing plain b with
  | nil =>
    rw [hb rfl, List.nil_append, withTag, piecesFrom_backslashes, Nat.zero_add,
      piecesFrom_tag (htag.tagText?_eq w), List.replicate_zero, List.append_nil, List.append_nil,
      List.drop_append, List.drop_eq_nil_of_le (Nat.le_succ _), Nat.add_sub_cancel_left]
    rfl
  | cons c u ih =>
    rw [hasTag_cons_iff, not_or] at hu
    have hlast' := getLast?_ne_of_cons hlast
    by_cases hbackslash : c = '\\'
    · have hne : u ≠ [] := by
        rintro rfl
        exact hlast (by rw [hbackslash]; rfl)
      rw [List.cons_append, piecesFrom_cons, if_pos hbackslash,
        ih hu.2 hlast' plain (b + 1) fun h => absurd h hne, backslashes_succ_append, hbackslash]
    · have hread : piecesFrom plain b 0 (c :: (u ++ withTag k tag w)) =
          piecesFrom (c :: List.replicate b '\\' ++ plain) 0 0 (u ++ withTag k tag w) := by
        by_cases hopening : c = '['
        · subst hopening
          refine piecesFrom_opening (tagText?_eq_none_iff.mpr fun hs => hu.1 ⟨rfl, ?_⟩) plain b
          exact opensTag_append_withTag_iff.mp hs
        · exact piecesFrom_char hbackslash hopening plain b _
      rw [List.cons_append, hread, ih hu.2 hlast' _ 0 fun _ => rfl, List.replicate_zero,
        List.nil_append, reverse_cons_backslashes_append]

theorem pieces_first_tag (hu : ¬ HasTag u) (hlast : u.getLast? ≠ some '\\') (htag : IsTag tag) :
    pieces (u ++ withTag k tag w) = .text u :: (piecesOfTag k tag ++ pieces w) :=
  piecesFrom_append_withTag hu hlast htag [] 0 fun _ => rfl

/-- What stands in front of a tag and what stands behind it are read by themselves. -/
theorem pieces_append_withTag (hlast : x.getLast? ≠ some '\\') (htag : IsTag tag) :
    pieces (x ++ withTag k tag w) = pieces x ++ (piecesOfTag k tag ++ pieces w) := by
  induction x using tag_induction with
  | plain x hx => rw [pieces_first_tag hx hlast htag, pieces_of_not_hasTag hx]; rfl
  | tag u j first rest hu hu' hfirst ih =>
    rw [List.append_assoc, withTag_append, pieces_first_tag hu hu' hfirst,
      pieces_first_tag hu hu' hfirst, ih (getLast?_ne_of_append_withTag hlast), List.cons_append,
      List.append_assoc]

/-! ## Plain text -/

theorem length_unescaped_le (s : List Char) : (unescaped s).length ≤ s.length := by
  induction s using unescaped.induct with
  | case1 => exact Nat.le_refl _
  | case2 rest ih =>
    rw [unescaped, List.length_cons, List.length_cons, List.length_cons]
    omega
  | case3 c rest hne ih =>
    rw [unescaped, List.length_cons, List.length_cons]
    · omega
    · exact hne

/-- Plain text shows as it is written exactly if no bracket has a backslash in front. -/
theorem unescaped_eq_self_iff : unescaped s = s ↔ ¬ ['\\', '['] <:+: s := by
  induction s using unescaped.induct with
  | case1 => simp [unescaped]
  | case2 rest ih =>
    refine iff_of_false (fun h => ?_) (not_not_intro (List.prefix_append _ _).isInfix)
    have hlength := congrArg List.length h
    have hle := length_unescaped_le rest
    rw [unescaped, List.length_cons, List.length_cons, List.length_cons] at hlength
    omega
  | case3 c rest hne ih =>
    rw [unescaped, List.cons.injEq, and_iff_right rfl, ih, Text.pair_infix_cons_iff, not_or]
    · refine (and_iff_right ?_).symm
      rintro ⟨hc, hhead⟩
      obtain ⟨tail, rfl⟩ := List.head?_eq_some_iff.mp hhead
      exact hne tail hc.symm rfl
    · exact hne

/-! ## What is shown -/

/-- The text has neither a tag nor a bracket with a backslash in front. -/
structure IsVerbatim (s : List Char) : Prop where
  noTag : ¬ HasTag s
  noEscape : ¬ ['\\', '['] <:+: s

theorem shown?_eq_some_iff {text plain : String} :
    shown? text = some plain ↔ shownPieces? [] (pieces text.toList) = some plain.toList := by
  rw [shown?, Option.map_eq_some_iff]
  constructor
  · rintro ⟨s, hs, rfl⟩
    rw [hs, String.toList_ofList]
  · intro h
    exact ⟨plain.toList, h, String.ofList_toList⟩

theorem shownPieces?_append_eq_some {front rest : List Piece} :
    shownPieces? isOpen (front ++ rest) = some t →
      ∃ u now v, shownPieces? isOpen front = some u ∧ shownPieces? now rest = some v ∧
        t = u ++ v := by
  intro h
  induction front generalizing isOpen t with
  | nil => exact ⟨[], isOpen, t, rfl, h, rfl⟩
  | cons p front ih =>
    rw [List.cons_append] at h
    cases p with
    | text s =>
      rw [shownPieces?, Option.map_eq_some_iff] at h
      obtain ⟨t, ht, rfl⟩ := h
      obtain ⟨u, now, v, hu, hv, rfl⟩ := ih ht
      refine ⟨unescaped s ++ u, now, v, ?_, hv, (List.append_assoc _ _ _).symm⟩
      rw [shownPieces?, hu]
      rfl
    | tag name =>
      rw [shownPieces?, Option.bind_eq_some_iff] at h
      obtain ⟨next, hnext, ht⟩ := h
      obtain ⟨u, now, v, hu, hv, rfl⟩ := ih ht
      refine ⟨u, now, v, ?_, hv, rfl⟩
      rw [shownPieces?, hnext]
      exact hu

theorem unescaped_backslashes (n : ℕ) :
    unescaped (List.replicate n '\\') = List.replicate n '\\' := by
  refine unescaped_eq_self_iff.mpr fun h => ?_
  have hmem := h.subset (List.mem_cons_of_mem _ List.mem_cons_self)
  exact absurd (List.eq_of_mem_replicate hmem) (by decide)

theorem unescaped_tag (htag : IsTag tag) :
    unescaped ('[' :: tag ++ [']']) = '[' :: tag ++ [']'] := by
  refine unescaped_eq_self_iff.mpr fun h => ?_
  rw [List.cons_append, Text.pair_infix_cons_iff] at h
  rcases h with ⟨h, -⟩ | h
  · exact absurd h (by decide)
  · rcases List.mem_append.mp (h.subset (List.mem_cons_of_mem _ List.mem_cons_self)) with h | h
    · exact htag.clear.1 h
    · exact absurd (List.mem_singleton.mp h) (by decide)

/-- Half of the backslashes in front of a tag are shown, and the tag itself if one is left over. -/
theorem shownPieces?_piecesOfTag (htag : IsTag tag) :
    shownPieces? isOpen (piecesOfTag k tag) =
      if k % 2 = 1 then some (List.replicate (k / 2) '\\' ++ ('[' :: tag ++ [']']))
      else (afterTag? isOpen tag).map fun _ => List.replicate (k / 2) '\\' := by
  rw [piecesOfTag]
  split
  · rw [shownPieces?, shownPieces?, shownPieces?, unescaped_backslashes, unescaped_tag htag]
    simp
  · rw [shownPieces?, shownPieces?, unescaped_backslashes]
    cases afterTag? isOpen tag with
    | none => rfl
    | some now => simp [shownPieces?]

/-- A tag does not show as it is written. -/
theorem length_lt_of_shown_piecesOfTag (htag : IsTag tag)
    (h : shownPieces? isOpen (piecesOfTag k tag) = some t) : t.length < k + (tag.length + 2) := by
  rw [shownPieces?_piecesOfTag htag] at h
  split at h
  · rename_i hodd
    rw [← Option.some_inj.mp h, List.length_append, List.length_replicate, List.length_append,
      List.length_cons, List.length_singleton]
    omega
  · obtain ⟨-, -, rfl⟩ := Option.map_eq_some_iff.mp h
    rw [List.length_replicate]
    omega

/-- Of a text without a tag everything is shown but backslashes in front of brackets. -/
theorem shown_of_not_hasTag (hs : ¬ HasTag s) :
    shownPieces? isOpen (pieces s) = some (unescaped s) := by
  rw [pieces_of_not_hasTag hs, shownPieces?, shownPieces?, Option.map_some, List.append_nil]

/-- What is shown of a text is not longer than the text, and shorter if a tag stands in it. -/
theorem length_shown_le (h : shownPieces? isOpen (pieces s) = some t) :
    t.length ≤ s.length ∧ (HasTag s → t.length < s.length) := by
  induction s using tag_induction generalizing isOpen t with
  | plain s hs =>
    rw [shown_of_not_hasTag hs] at h
    rw [← Option.some_inj.mp h]
    exact ⟨length_unescaped_le s, fun htag => absurd htag hs⟩
  | tag u k tag w hu hlast htag ih =>
    have hlt : t.length < (u ++ withTag k tag w).length := by
      rw [pieces_first_tag hu hlast htag, shownPieces?, Option.map_eq_some_iff] at h
      obtain ⟨t, ht, rfl⟩ := h
      obtain ⟨front, now, rest, hfront, hrest, rfl⟩ := shownPieces?_append_eq_some ht
      have hplain := length_unescaped_le u
      have hshort := length_lt_of_shown_piecesOfTag htag hfront
      have hle := (ih hrest).1
      rw [List.length_append, List.length_append, List.length_append, length_withTag]
      omega
    exact ⟨hlt.le, fun _ => hlt⟩

/-- A text shows as it is written exactly if it has neither a tag nor a bracket with a backslash in
front. -/
theorem shown_eq_self_iff : shownPieces? isOpen (pieces s) = some s ↔ IsVerbatim s := by
  constructor
  · intro h
    have hs : ¬ HasTag s := fun htag => absurd ((length_shown_le h).2 htag) (lt_irrefl _)
    rw [shown_of_not_hasTag hs, Option.some_inj] at h
    exact ⟨hs, unescaped_eq_self_iff.mp h⟩
  · intro h
    rw [shown_of_not_hasTag h.noTag, unescaped_eq_self_iff.mpr h.noEscape]

theorem isVerbatim_of_notMem (h : '[' ∉ s) : IsVerbatim s := by
  constructor
  · rintro ⟨u, v, rfl, -⟩
    simp at h
  · intro hescape
    exact h (hescape.subset (List.mem_cons_of_mem _ List.mem_cons_self))

theorem isVerbatim_cons_iff (hopening : c ≠ '[') (hbackslash : c ≠ '\\') :
    IsVerbatim (c :: s) ↔ IsVerbatim s := by
  have htag : HasTag (c :: s) ↔ HasTag s := by
    rw [hasTag_cons_iff, or_iff_right fun h => hopening h.1]
  have hescape : ['\\', '['] <:+: c :: s ↔ ['\\', '['] <:+: s := by
    rw [Text.pair_infix_cons_iff, or_iff_right fun h => hbackslash h.1.symm]
  constructor
  · exact fun h => ⟨htag.not.mp h.noTag, hescape.not.mp h.noEscape⟩
  · exact fun h => ⟨htag.not.mpr h.noTag, hescape.not.mpr h.noEscape⟩

/-! ## Texts with a tag behind them -/

/-- The backslashes at the end of a text. -/
theorem exists_backslashes (s : List Char) :
    ∃ x k, s = x ++ List.replicate k '\\' ∧ x.getLast? ≠ some '\\' := by
  induction s using List.reverseRecOn with
  | nil => exact ⟨[], 0, rfl, by simp⟩
  | append_singleton s c ih =>
    by_cases hc : c = '\\'
    · obtain ⟨x, k, rfl, hx⟩ := ih
      exact ⟨x, k + 1, by rw [hc, List.replicate_succ', List.append_assoc], hx⟩
    · exact ⟨s ++ [c], 0, (List.append_nil _).symm, by simpa using hc⟩

theorem getLast?_append_backslashes (x : List Char) (k : ℕ) :
    (x ++ List.replicate (k + 1) '\\').getLast? = some '\\' := by
  rw [List.replicate_succ', ← List.append_assoc, List.getLast?_concat]

theorem shownPieces?_append_nothing (ps : List Piece) :
    shownPieces? isOpen (ps ++ [.text []]) = shownPieces? isOpen ps := by
  induction ps generalizing isOpen with
  | nil => rfl
  | cons p ps ih =>
    rw [List.cons_append]
    cases p with
    | text s => rw [shownPieces?, shownPieces?, ih]
    | tag name =>
      rw [shownPieces?, shownPieces?]
      exact congrArg _ (funext fun _ => ih)

/-- A text with a tag behind it that can be closed shows as it is written, without the tag, exactly
if it would do so alone and does not end with a backslash. -/
theorem shown_append_closing_iff (htag : IsTag tag) (hclose : afterTag? isOpen tag = some now) :
    shownPieces? isOpen (pieces (s ++ withTag 0 tag [])) = some s ↔
      IsVerbatim s ∧ s.getLast? ≠ some '\\' := by
  obtain ⟨x, k, rfl, hx⟩ := exists_backslashes s
  have hread : shownPieces? isOpen (pieces (x ++ List.replicate k '\\' ++ withTag 0 tag [])) =
      shownPieces? isOpen (pieces x ++ piecesOfTag k tag) := by
    rw [← shownPieces?_append_nothing (pieces x ++ piecesOfTag k tag), List.append_assoc,
      List.append_assoc]
    exact congrArg _ (pieces_append_withTag hx htag)
  rw [hread]
  cases k with
  | zero =>
    rw [List.replicate_zero, List.append_nil, and_iff_left hx]
    constructor
    · intro h
      obtain ⟨front, now, rest, hfront, hrest, rfl⟩ := shownPieces?_append_eq_some h
      rw [shownPieces?_piecesOfTag htag, if_neg (by decide), Option.map_eq_some_iff] at hrest
      obtain ⟨-, -, rfl⟩ := hrest
      rw [Nat.zero_div, List.replicate_zero, List.append_nil] at hfront ⊢
      exact shown_eq_self_iff.mp hfront
    · intro h
      rw [pieces_of_not_hasTag h.noTag, List.singleton_append, shownPieces?,
        shownPieces?_piecesOfTag htag, if_neg (by decide), hclose,
        unescaped_eq_self_iff.mpr h.noEscape]
      simp
  | succ k =>
    refine iff_of_false (fun h => ?_) fun h => h.2 (getLast?_append_backslashes x k)
    obtain ⟨front, now, rest, hfront, hrest, heq⟩ := shownPieces?_append_eq_some h
    rw [shownPieces?_piecesOfTag htag] at hrest
    split at hrest
    · -- the tag is shown, so that the text would end with a bracket
      have hlast := getLast?_append_backslashes x k
      rw [heq, ← Option.some_inj.mp hrest, ← List.append_assoc, ← List.append_assoc,
        List.getLast?_concat] at hlast
      exact absurd hlast (by decide)
    · -- some of the backslashes are lost
      obtain ⟨-, -, rfl⟩ := Option.map_eq_some_iff.mp hrest
      have hle := (length_shown_le hfront).1
      have hlength := congrArg List.length heq
      rw [List.length_append, List.length_append, List.length_replicate,
        List.length_replicate] at hlength
      omega

/-! ## Styles -/

/-- A text that shows as it is written does so in front of a tag, which changes the open tags. -/
theorem shown_append_withTag (hu : IsVerbatim u) (hlast : u.getLast? ≠ some '\\') (htag : IsTag tag)
    (hafter : afterTag? isOpen tag = some now) :
    shownPieces? isOpen (pieces (u ++ withTag 0 tag w)) =
      (shownPieces? now (pieces w)).map (u ++ ·) := by
  have htagged : piecesOfTag 0 tag = [.text [], .tag tag] := rfl
  rw [pieces_first_tag hu.noTag hlast htag, htagged, shownPieces?, List.cons_append,
    List.cons_append, List.nil_append, shownPieces?, shownPieces?, hafter, Option.bind_some,
    unescaped_eq_self_iff.mpr hu.noEscape, Option.map_map]
  rfl

/-- A tag at the start of a text changes the open tags. -/
theorem shown_withTag (htag : IsTag tag) (hafter : afterTag? isOpen tag = some now) :
    shownPieces? isOpen (pieces (withTag 0 tag w)) = shownPieces? now (pieces w) := by
  have h := shown_append_withTag (u := []) (w := w) (isVerbatim_of_notMem List.not_mem_nil)
    (by simp) htag hafter
  exact h.trans Option.map_id'

/-- The tag opens a style, which the tag with a slash in front closes. -/
@[mk_iff]
structure IsStyle (tag : List Char) : Prop where
  isTag : IsTag tag
  opens : tag.head? ≠ some '/'
  named : (nameOf tag).isEmpty = false

instance : DecidablePred IsStyle := fun tag => decidable_of_iff' _ (isStyle_iff tag)

theorem IsStyle.afterTag?_eq (h : IsStyle tag) :
    afterTag? isOpen tag = some (nameOf tag :: isOpen) := by
  rw [afterTag?]
  rintro rest rfl
  exact h.opens rfl

theorem IsStyle.isTag_closing (h : IsStyle tag) : IsTag ('/' :: tag) :=
  ⟨h.isTag.clear.cons (by decide) (by decide), rfl⟩

theorem IsStyle.afterTag?_closing (h : IsStyle tag) :
    afterTag? (nameOf tag :: isOpen) ('/' :: tag) = some isOpen := by
  rw [afterTag?, h.named, if_neg Bool.false_ne_true, if_pos (by simp), List.erase_cons_head]

/-- A word in a style is shown in front of what stands behind it. -/
theorem shown_word (h : IsStyle tag) (hu : IsVerbatim u) (hlast : u.getLast? ≠ some '\\') :
    shownPieces? isOpen (pieces (withTag 0 tag (u ++ withTag 0 ('/' :: tag) w))) =
      (shownPieces? isOpen (pieces w)).map (u ++ ·) := by
  rw [shown_withTag h.isTag h.afterTag?_eq,
    shown_append_withTag hu hlast h.isTag_closing h.afterTag?_closing]

/-- A text in a style shows as it is written exactly if it would do so alone and does not end with
a backslash. -/
theorem shown_styled_iff (h : IsStyle tag) :
    shownPieces? isOpen (pieces (withTag 0 tag (s ++ withTag 0 ('/' :: tag) []))) = some s ↔
      IsVerbatim s ∧ s.getLast? ≠ some '\\' := by
  rw [shown_withTag h.isTag h.afterTag?_eq]
  exact shown_append_closing_iff h.isTag_closing h.afterTag?_closing

end TypedClient.Markup

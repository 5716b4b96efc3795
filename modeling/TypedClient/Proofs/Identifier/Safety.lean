import TypedClient.Proofs.Identifier.Assignment

/-!
# Safe identifiers

Making a text safe gives a safe identifier, whatever the text is, and so does a suffix behind a safe
one.  What is put in front of a digit or behind a word is an underscore, a suffix ends with a digit,
and no reserved word ends with either.  Names that are assigned are therefore safe, and each is the
first candidate for its base that the names in front of it have left free.

* `isSafe_sanitize`, `IsSafe.candidate`: the texts that are safe.
* `sanitize_eq_self_iff`, `sanitize_eq_self_of_notMem`: the texts that are kept.
* `FirstFree`: a base, or the base with the least numeric suffix that is free.
* `firstFree_unused`, `firstFree_getElem?_assign`: the search for a name, and the names that are
  assigned.
-/

namespace TypedClient.Identifier

variable {s base name : String} {c : Char} {taken : List String}

/-! ## Characters -/

theorem isWord_cleanChar (c : Char) : isWord (cleanChar c) = true := by
  rw [cleanChar]
  split
  · assumption
  · decide

theorem isWord_of_isDigit (h : isDigit c = true) : isWord c = true := by
  have hdigit : ('0' ≤ c && c ≤ '9') = true := h
  rw [isWord, hdigit, Bool.or_true, Bool.true_or]

/-- No reserved word ends with an underscore or a digit. -/
theorem isReserved_of_getLast? (h : c ∈ s.toList.getLast?) (hc : c = '_' ∨ isDigit c = true) :
    isReserved s = false := by
  have hwords : ((targetReserved ++ scriptReserved).all fun word =>
      word.toList.getLast?.all fun d => d != '_' && !isDigit d) = true := by decide +kernel
  rw [isReserved, ← Bool.not_eq_true, ← List.contains_append, List.contains_iff_mem]
  intro hmem
  have hlast := List.all_eq_true.mp hwords s hmem
  rw [Option.mem_def.mp h, Option.all_some, Bool.and_eq_true, bne_iff_ne,
    Bool.not_eq_true'] at hlast
  rcases hc with rfl | hdigit
  · exact hlast.1 rfl
  · rw [hlast.2] at hdigit
    cases hdigit

/-! ## Making a text safe -/

/-- Behind the guard for digits a text of word characters starts with no digit. -/
theorem guardDigit_spec {chars : List Char} (hne : chars ≠ [])
    (hwords : ∀ c ∈ chars, isWord c = true) :
    guardDigit chars ≠ [] ∧ (∀ c ∈ guardDigit chars, isWord c = true) ∧
      ∀ c ∈ (guardDigit chars).head?, ¬ isDigit c = true := by
  cases chars with
  | nil => exact absurd rfl hne
  | cons c rest =>
    rw [guardDigit]
    split
    · refine ⟨List.cons_ne_nil _ _, List.forall_mem_cons.mpr ⟨by decide, hwords⟩, ?_⟩
      rintro d ⟨⟩
      decide
    · rename_i hdigit
      refine ⟨List.cons_ne_nil _ _, hwords, ?_⟩
      rintro d ⟨⟩
      exact hdigit

/-- Behind the guard for reserved words a text that only such a word keeps from being safe is
safe. -/
theorem isSafe_guardReserved (hne : s.toList ≠ []) (hwords : ∀ c ∈ s.toList, isWord c = true)
    (hhead : ∀ c ∈ s.toList.head?, ¬ isDigit c = true) : IsSafe (guardReserved s) := by
  rw [guardReserved]
  split
  · have htext : (s ++ "_").toList = s.toList ++ ['_'] := String.toList_append
    refine ⟨?_, ?_, ?_, ?_⟩
    · rw [htext]
      exact List.append_ne_nil_of_left_ne_nil hne _
    · rw [htext]
      exact List.forall_mem_append.mpr ⟨hwords, List.forall_mem_singleton.mpr rfl⟩
    · rw [htext, List.head?_append_of_ne_nil _ hne]
      exact hhead
    · rw [isReserved_of_getLast? (c := '_') (by rw [htext, List.getLast?_concat]; rfl) (Or.inl rfl)]
      exact Bool.false_ne_true
  · rename_i hfree
    exact ⟨hne, hwords, hhead, hfree⟩

/-- What is made of a text is a safe identifier. -/
theorem isSafe_sanitize (s : String) : IsSafe (sanitize s) := by
  have hwords : ∀ c ∈ s.toList.map cleanChar, isWord c = true :=
    List.forall_mem_map.mpr fun c _ => isWord_cleanChar c
  rw [sanitize]
  split
  · decide
  · rename_i chars hne
    obtain ⟨hguard, hguarded, hhead⟩ := guardDigit_spec hne hwords
    refine isSafe_guardReserved ?_ ?_ ?_ <;> rw [String.toList_ofList]
    · exact hguard
    · exact hguarded
    · exact hhead

/-! ## Texts that are kept -/

theorem map_cleanChar_eq_self {chars : List Char} (h : ∀ c ∈ chars, isWord c = true) :
    chars.map cleanChar = chars :=
  (List.map_congr_left fun c hc => if_pos (h c hc)).trans (List.map_id chars)

theorem sanitize_of_ne_nil (h : s.toList ≠ []) :
    sanitize s = guardReserved (String.ofList (guardDigit (s.toList.map cleanChar))) := by
  unfold sanitize
  cases hs : s.toList with
  | nil => exact absurd hs h
  | cons c rest => rfl

/-- A safe identifier is kept as it is. -/
theorem sanitize_eq_self (h : IsSafe s) : sanitize s = s := by
  obtain ⟨hne, hwords, hhead, hfree⟩ := h
  rw [sanitize_of_ne_nil hne, map_cleanChar_eq_self hwords]
  cases hs : s.toList with
  | nil => exact absurd hs hne
  | cons c rest =>
    have hdigit : ¬ isDigit c = true := hhead c (by rw [hs]; rfl)
    rw [guardDigit, if_neg hdigit, ← hs, String.ofList_toList, guardReserved, if_neg hfree]

/-- Making a text safe leaves exactly the safe identifiers as they are. -/
theorem sanitize_eq_self_iff : sanitize s = s ↔ IsSafe s := by
  constructor
  · intro h
    rw [← h]
    exact isSafe_sanitize s
  · exact sanitize_eq_self

theorem sanitize_sanitize (s : String) : sanitize (sanitize s) = sanitize s :=
  sanitize_eq_self (isSafe_sanitize s)

theorem guardReserved_eq_self_of_notMem (h : '_' ∉ (guardReserved s).toList) :
    guardReserved s = s := by
  unfold guardReserved at h ⊢
  split
  · rename_i hword
    rw [if_pos hword, String.toList_append] at h
    exact absurd (List.mem_append_right _ (List.mem_singleton_self '_')) h
  · rfl

theorem guardDigit_eq_self_of_notMem {chars : List Char} (h : '_' ∉ guardDigit chars) :
    guardDigit chars = chars := by
  cases chars with
  | nil => rfl
  | cons c rest =>
    rw [guardDigit] at h ⊢
    split
    · rename_i hdigit
      rw [if_pos hdigit] at h
      exact absurd List.mem_cons_self h
    · rfl

theorem map_cleanChar_eq_self_of_notMem {chars : List Char} (h : '_' ∉ chars.map cleanChar) :
    chars.map cleanChar = chars := by
  refine map_cleanChar_eq_self fun c hc => ?_
  by_contra hword
  exact h (List.mem_map.mpr ⟨c, hc, if_neg hword⟩)

/-- Whatever has to be changed in a text to make it safe leaves an underscore. -/
theorem sanitize_eq_self_of_notMem (h : '_' ∉ (sanitize s).toList) : sanitize s = s := by
  have hne : s.toList ≠ [] := by
    intro hnil
    rw [sanitize, hnil] at h
    exact h (List.mem_singleton_self '_')
  rw [sanitize_of_ne_nil hne] at h ⊢
  have hreserved := guardReserved_eq_self_of_notMem h
  rw [hreserved, String.toList_ofList] at h
  have hdigit := guardDigit_eq_self_of_notMem h
  rw [hdigit] at h
  rw [hreserved, hdigit, map_cleanChar_eq_self_of_notMem h, String.ofList_toList]

/-! ## Suffixes -/

theorem toList_candidate_succ (base : String) (k : Nat) :
    (candidate base (k + 1)).toList = base.toList ++ '_' :: Nat.toDigits 10 (k + 2) := by
  rw [candidate_succ, String.toList_append, String.toList_append, List.append_assoc,
    Nat.toString_eq_ofList_toDigits, String.toList_ofList, String.toList_ofList]
  rfl

/-- A suffix keeps an identifier safe. -/
theorem IsSafe.candidate (h : IsSafe base) (k : Nat) : IsSafe (candidate base k) := by
  obtain ⟨hne, hwords, hhead, hfree⟩ := h
  cases k with
  | zero => exact ⟨hne, hwords, hhead, hfree⟩
  | succ k =>
    have hdigits : ∀ c ∈ Nat.toDigits 10 (k + 2), isDigit c = true := fun c hc =>
      Nat.isDigit_of_mem_toDigits (by decide) (Nat.le_refl 10) hc
    refine ⟨?_, ?_, ?_, ?_⟩
    · rw [toList_candidate_succ]
      exact List.append_ne_nil_of_left_ne_nil hne _
    · rw [toList_candidate_succ]
      refine List.forall_mem_append.mpr ⟨hwords, List.forall_mem_cons.mpr ⟨by decide, ?_⟩⟩
      exact fun c hc => isWord_of_isDigit (hdigits c hc)
    · rw [toList_candidate_succ, List.head?_append_of_ne_nil _ hne]
      exact hhead
    · obtain ⟨front, last, hlast⟩ :=
        (List.eq_nil_or_concat' (Nat.toDigits 10 (k + 2))).resolve_left Nat.toDigits_ne_nil
      have hmem : last ∈ (Identifier.candidate base (k + 1)).toList.getLast? := by
        rw [toList_candidate_succ, hlast, ← List.cons_append, ← List.append_assoc,
          List.getLast?_concat]
        rfl
      have hdigit : isDigit last = true :=
        hdigits last (by rw [hlast]; exact List.mem_append_right _ (List.mem_singleton_self _))
      rw [isReserved_of_getLast? hmem (Or.inr hdigit)]
      exact Bool.false_ne_true

/-! ## The first name that is free -/

/-- The name is the base if that is free, and otherwise the base with the least suffix from two that
is free. -/
inductive FirstFree (taken : List String) (base : String) : String → Prop
  | plain (hfree : base ∉ taken) : FirstFree taken base base
  | suffixed {k : Nat} (htwo : 2 ≤ k) (htaken : base ∈ taken)
      (hfree : base ++ "_" ++ toString k ∉ taken)
      (hleast : ∀ j, 2 ≤ j → j < k → base ++ "_" ++ toString j ∈ taken) :
      FirstFree taken base (base ++ "_" ++ toString k)

/-- The search for a name ends, and with the first one that is free. -/
theorem firstFree_unused (taken : List String) (base : String) :
    FirstFree taken base (unused taken base) := by
  obtain ⟨k, heq, hfree, hleast⟩ := unused_eq_candidate taken base
  rw [heq]
  cases k with
  | zero => exact .plain hfree
  | succ k =>
    refine .suffixed (Nat.le_add_left 2 k) (hleast 0 (Nat.zero_lt_succ k)) hfree ?_
    intro j htwo hlt
    obtain ⟨i, rfl⟩ := Nat.exists_eq_add_of_le' htwo
    exact hleast (i + 1) (by omega)

/-- A base that is free is kept. -/
theorem FirstFree.eq_base (h : FirstFree taken base name) (hfree : base ∉ taken) : name = base := by
  cases h with
  | plain _ => rfl
  | suffixed _ htaken _ _ => exact absurd htaken hfree

/-- A name without an underscore has no suffix. -/
theorem FirstFree.eq_base_of_notMem (h : FirstFree taken base name) (hname : '_' ∉ name.toList) :
    name = base := by
  cases h with
  | plain _ => rfl
  | @suffixed k _ _ _ _ =>
    refine absurd ?_ hname
    rw [String.toList_append, String.toList_append]
    exact List.mem_append_left _ (List.mem_append_right _ (List.mem_singleton_self '_'))

theorem FirstFree.isSafe (h : FirstFree taken base name) (hbase : IsSafe base) : IsSafe name := by
  cases h with
  | plain _ => exact hbase
  | @suffixed k htwo _ _ _ =>
    obtain ⟨i, rfl⟩ := Nat.exists_eq_add_of_le' htwo
    exact hbase.candidate (i + 1)

/-- Names that are assigned to safe identifiers are safe. -/
theorem isSafe_of_mem_assign {bases : List String} (hbases : ∀ base ∈ bases, IsSafe base)
    (h : name ∈ assign taken bases) : IsSafe name := by
  induction bases generalizing taken with
  | nil => exact absurd h List.not_mem_nil
  | cons base rest ih =>
    rw [List.forall_mem_cons] at hbases
    rw [assign_cons, List.mem_cons] at h
    rcases h with rfl | h
    · exact (firstFree_unused taken base).isSafe hbases.1
    · exact ih hbases.2 h

/-- Which names are taken is all that matters. -/
theorem FirstFree.congr {others : List String} (h : FirstFree taken base name)
    (hiff : ∀ n, n ∈ taken ↔ n ∈ others) : FirstFree others base name := by
  cases h with
  | plain hfree => exact .plain (mt (hiff _).mpr hfree)
  | suffixed htwo htaken hfree hleast =>
    exact .suffixed htwo ((hiff _).mp htaken) (mt (hiff _).mpr hfree) fun j hj hlt =>
      (hiff _).mp (hleast j hj hlt)

/-- Every assigned name is the first one that neither the names taken before nor the names assigned
in front of it leave taken. -/
theorem firstFree_getElem?_assign {bases : List String} {i : Nat} (hbase : bases[i]? = some base)
    (hname : (assign taken bases)[i]? = some name) :
    FirstFree (taken ++ (assign taken bases).take i) base name := by
  induction bases generalizing taken i with
  | nil => cases hbase
  | cons first rest ih =>
    rw [assign_cons] at hname ⊢
    cases i with
    | zero =>
      obtain rfl := Option.some_inj.mp hbase
      obtain rfl := Option.some_inj.mp hname
      rw [List.take_zero, List.append_nil]
      exact firstFree_unused taken first
    | succ i =>
      refine (ih hbase hname).congr fun n => ?_
      rw [List.take_succ_cons, List.mem_append, List.mem_append, List.mem_cons, List.mem_cons]
      tauto

end TypedClient.Identifier

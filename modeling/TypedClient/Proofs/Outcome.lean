/-!
# Steps that may fail

A step gives a result or fails.  A sequence of two steps succeeds exactly if both do, and then with
the result of the second.  A run over a list takes one step for each element and ends with the first
that fails, so that what every step keeps holds at the end of a run, and where a run fails it holds
up to the step that failed.

* `Outcome.bind_eq_ok_iff`, `Outcome.bind_eq_error_iff`: how a sequence of two steps ends.
* `Outcome.ok_or_error`: a step does one of the two.
* `Outcome.failure?`: the failure of a step, with the steps that fail as their parts do.
* `Outcome.Fails`: a step fails, with the steps that fail exactly if one of their parts does.
* `Outcome.foldlM_invariant`: what every step keeps holds at the end of a run.
* `Outcome.foldlM_eq_error`: where a run fails.
-/

namespace TypedClient.Outcome

variable {ε α β : Type}

/-- A sequence of two steps succeeds exactly if both do. -/
theorem bind_eq_ok_iff {x : Except ε α} {f : α → Except ε β} {b : β} :
    (x >>= f) = .ok b ↔ ∃ a, x = .ok a ∧ f a = .ok b := by
  cases x with
  | error e =>
    constructor
    · intro h
      cases h
    · rintro ⟨a, ha, -⟩
      cases ha
  | ok a =>
    constructor
    · intro h
      exact ⟨a, rfl, h⟩
    · rintro ⟨a', ha, h⟩
      cases ha
      exact h

/-- A sequence of two steps fails with the failure of the step that fails first. -/
theorem bind_eq_error_iff {x : Except ε α} {f : α → Except ε β} {e : ε} :
    (x >>= f) = .error e ↔ x = .error e ∨ ∃ a, x = .ok a ∧ f a = .error e := by
  cases x with
  | error e' =>
    constructor
    · intro h
      cases h
      exact Or.inl rfl
    · rintro (h | ⟨a, ha, -⟩)
      · cases h
        rfl
      · cases ha
  | ok a =>
    constructor
    · intro h
      exact Or.inr ⟨a, rfl, h⟩
    · rintro (h | ⟨a', ha, h⟩)
      · cases h
      · cases ha
        exact h

/-- A step gives a result or fails. -/
theorem ok_or_error (x : Except ε α) : (∃ a, x = .ok a) ∨ ∃ e, x = .error e := by
  cases x with
  | error e => exact Or.inr ⟨e, rfl⟩
  | ok a => exact Or.inl ⟨a, rfl⟩

theorem toOption_eq_some_iff {x : Except ε α} {a : α} : x.toOption = some a ↔ x = .ok a := by
  cases x <;> simp [Except.toOption]

/-! ## Failures -/

/-- The failure of a step that fails. -/
def failure? : Except ε α → Option ε
  | .ok _ => none
  | .error e => some e

theorem failure?_eq_none_iff {x : Except ε α} : failure? x = none ↔ ∃ a, x = .ok a := by
  cases x with
  | error e =>
    refine iff_of_false (by simp [failure?]) ?_
    rintro ⟨a, h⟩
    cases h
  | ok a => exact ⟨fun _ => ⟨a, rfl⟩, fun _ => rfl⟩

theorem failure?_eq_some_iff {x : Except ε α} {e : ε} : failure? x = some e ↔ x = .error e := by
  cases x <;> simp [failure?]

/-- A step whose result is only put into another form fails as it is. -/
theorem failure?_map (x : Except ε α) (f : α → β) :
    failure? (x >>= fun a => .ok (f a)) = failure? x := by
  cases x <;> rfl

/-- Of two steps whose results are joined the first failure counts. -/
theorem failure?_join {γ : Type} (x : Except ε α) (y : Except ε β) (f : α → β → γ) :
    failure? (x >>= fun a => y >>= fun b => .ok (f a b)) = (failure? x).or (failure? y) := by
  cases x with
  | error e => rfl
  | ok a => cases y <;> rfl

/-- A step fails. -/
def Fails (x : Except ε α) : Prop := ∃ e, x = .error e

@[simp] theorem not_fails_ok (a : α) : ¬ Fails (.ok a : Except ε α) := by
  rintro ⟨e, h⟩
  cases h

/-- A sequence of two steps fails if one of them does, where whether the second fails does not
depend on the result of the first. -/
theorem fails_bind_iff {x : Except ε α} {f : α → Except ε β} {P : Prop}
    (h : ∀ a, x = .ok a → (Fails (f a) ↔ P)) : Fails (x >>= f) ↔ Fails x ∨ P := by
  cases x with
  | error e => exact ⟨fun _ => Or.inl ⟨e, rfl⟩, fun _ => ⟨e, rfl⟩⟩
  | ok a =>
    have hsecond : Fails ((Except.ok a : Except ε α) >>= f) ↔ P := h a rfl
    rw [hsecond]
    exact ⟨Or.inr, fun hfails => hfails.resolve_left (not_fails_ok a)⟩

/-- A step whose result is only put into another form fails if the step does. -/
theorem fails_map_iff (x : Except ε α) (f : α → β) :
    Fails (x >>= fun a => .ok (f a)) ↔ Fails x := by
  rw [fails_bind_iff fun a _ => iff_false_intro (not_fails_ok (f a)), or_false]

/-- A step for each element of a list fails if one of the steps does. -/
theorem fails_mapM_iff {f : α → Except ε β} {l : List α} :
    Fails (l.mapM f) ↔ ∃ a ∈ l, Fails (f a) := by
  induction l with
  | nil =>
    rw [List.mapM_nil]
    exact iff_of_false (not_fails_ok []) (by simp)
  | cons a rest ih =>
    simp only [List.mapM_cons, List.mem_cons, or_and_right, exists_or, exists_eq_left, ← ih]
    exact fails_bind_iff fun b _ => fails_map_iff _ _

/-- What a step for each element of a list gives, it gives for one of the elements. -/
theorem exists_of_mem_mapM {f : α → Except ε β} {l : List α} {made : List β}
    (h : l.mapM f = .ok made) {b : β} (hb : b ∈ made) : ∃ a ∈ l, f a = .ok b := by
  induction l generalizing made with
  | nil =>
    obtain rfl := Except.ok.inj h
    exact absurd hb List.not_mem_nil
  | cons a rest ih =>
    rw [List.mapM_cons] at h
    obtain ⟨first, hfirst, h⟩ := bind_eq_ok_iff.mp h
    obtain ⟨others, hothers, h⟩ := bind_eq_ok_iff.mp h
    obtain rfl := Except.ok.inj h
    rcases List.mem_cons.mp hb with rfl | hb
    · exact ⟨a, List.mem_cons_self, hfirst⟩
    · obtain ⟨a', ha', hmade⟩ := ih hothers hb
      exact ⟨a', List.mem_cons_of_mem _ ha', hmade⟩

/-- A step for each element of a list that gives what a function does gives what the function does
for the list. -/
theorem eq_map_of_mapM {f : α → Except ε β} {g : α → β} (h : ∀ a b, f a = .ok b → b = g a)
    {l : List α} {made : List β} (hmade : l.mapM f = .ok made) : made = l.map g := by
  induction l generalizing made with
  | nil => exact (Except.ok.inj hmade).symm
  | cons a rest ih =>
    rw [List.mapM_cons] at hmade
    obtain ⟨b, hb, hmade⟩ := bind_eq_ok_iff.mp hmade
    obtain ⟨bs, hbs, hmade⟩ := bind_eq_ok_iff.mp hmade
    rw [← Except.ok.inj hmade, h a b hb, ih hbs, List.map_cons]

theorem fails_forM_iff {f : α → Except ε PUnit} {l : List α} :
    Fails (l.forM f) ↔ ∃ a ∈ l, Fails (f a) := by
  induction l with
  | nil => exact iff_of_false (not_fails_ok _) (by simp)
  | cons a rest ih =>
    simp only [List.mem_cons, or_and_right, exists_or, exists_eq_left, ← ih]
    exact fails_bind_iff fun _ _ => Iff.rfl

/-! ## Runs over a list -/

/-- What every step keeps holds at the end of a run, of the elements that the run has taken. -/
theorem foldlM_invariant {f : β → α → Except ε β} {I : List α → β → Prop}
    (step : ∀ seen b a b', I seen b → f b a = .ok b' → I (seen ++ [a]) b') {seen rest : List α}
    {b b' : β} (hinit : I seen b) (h : rest.foldlM f b = .ok b') : I (seen ++ rest) b' := by
  induction rest generalizing seen b with
  | nil =>
    obtain rfl := Except.ok.inj h
    rw [List.append_nil]
    exact hinit
  | cons a rest ih =>
    rw [List.foldlM_cons] at h
    obtain ⟨next, hnext, h⟩ := bind_eq_ok_iff.mp h
    have hrest := ih (step seen b a next hinit hnext) h
    rw [List.append_assoc] at hrest
    exact hrest

/-- A run that fails has taken a first part of the list without failing, and fails with the step
behind it. -/
theorem foldlM_eq_error {f : β → α → Except ε β} {l : List α} {b : β} {e : ε}
    (h : l.foldlM f b = .error e) :
    ∃ before a rest b', l = before ++ a :: rest ∧ before.foldlM f b = .ok b' ∧
      f b' a = .error e := by
  induction l generalizing b with
  | nil => cases h
  | cons a rest ih =>
    rw [List.foldlM_cons] at h
    rcases bind_eq_error_iff.mp h with hfail | ⟨next, hnext, h⟩
    · exact ⟨[], a, rest, b, rfl, rfl, hfail⟩
    · obtain ⟨before, x, more, b', hl, hbefore, hfail⟩ := ih h
      refine ⟨a :: before, x, more, b', by rw [hl, List.cons_append], ?_, hfail⟩
      rw [List.foldlM_cons, bind_eq_ok_iff]
      exact ⟨next, hnext, hbefore⟩

end TypedClient.Outcome

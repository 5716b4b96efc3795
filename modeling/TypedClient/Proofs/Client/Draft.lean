import TypedClient.Client
import TypedClient.Proofs.Analysis.Operations
import TypedClient.Proofs.FirstSeen
import TypedClient.Proofs.Named

/-!
# Drafts of a client

A draft takes one operation after the other.  Two parts of it grow independently: an operation whose
path and method are new adds a method, with what the method refers to, and every operation adds a
member to the group of its tag.  Each part has its invariant, which says what the part holds in
terms of the operations that were taken, and neither supposes anything of those operations.  What
one operation does to each part is said here.

* `Plan.made`, `Plan.notesOn`, `Plan.exposed`: the method of an operation, the notes on it, and the
  name under which it is exposed.
* `Draft.withCallable`, `Draft.withMember`: a draft with a method, and with a member of a group.
* `Draft.add_eq_ok`, `Draft.add_eq_error`: what one more operation does.
-/

namespace TypedClient

/-- The path and the method of the operation that a method calls. -/
def Callable.route (c : Callable) : String × Method := (c.path, c.method)

/-- The projections in the types of a method's data and of its response. -/
def Callable.viewNames (c : Callable) : NameSet :=
  match c.dataType with
  | some type => NameSet.union type.viewNames c.returnType.viewNames
  | none => c.returnType.viewNames

namespace Client

/-- The method that is made of an operation. -/
def Plan.made (plan : Plan) (op : AnalyzedOperation) : Callable :=
  (callable plan.lib plan.qualifier plan.modifiers op).1

/-- The notes on the method that is made of an operation. -/
def Plan.notesOn (plan : Plan) (op : AnalyzedOperation) : List Diagnostic :=
  (callable plan.lib plan.qualifier plan.modifiers op).2

/-- The name under which an operation is exposed. -/
def Plan.exposed (plan : Plan) (op : AnalyzedOperation) : String :=
  exposedName plan.removesTag op

variable {plan : Plan} {op : AnalyzedOperation} {seen : List AnalyzedOperation}

theorem name_made : (plan.made op).name = op.methodName := rfl

/-- The exposed name is made of the tag and the method name alone. -/
theorem exposed_congr {a b : AnalyzedOperation} (htag : a.tag = b.tag)
    (hname : a.methodName = b.methodName) : plan.exposed a = plan.exposed b := by
  rw [Plan.exposed, Plan.exposed, exposedName, exposedName, htag, hname]

namespace Draft

variable {draft next : Draft}

/-- The members that are exposed under a tag. -/
def group (draft : Draft) (tag : String) : Named Target :=
  (draft.groups.get? tag).getD []

/-! ## What a step does -/

/-- The draft with the method of an operation. -/
def withCallable (draft : Draft) (plan : Plan) (op : AnalyzedOperation) : Draft :=
  { draft with
    callables := draft.callables ++ [plan.made op]
    references := NameSet.union op.references draft.references
    views := NameSet.union (plan.made op).viewNames draft.views
    notes := draft.notes ++ plan.notesOn op }

/-- The draft with the operation exposed under its tag. -/
def withMember (draft : Draft) (plan : Plan) (op : AnalyzedOperation) : Draft :=
  { draft with
    groups := draft.groups.put op.tag
      ((draft.group op.tag).put (plan.exposed op) ⟨op.methodName, op.label⟩) }

/-- There is a method for an operation if there is one with its path and its method. -/
theorem hasCallable_iff : draft.hasCallable op = true ↔
    op.route ∈ draft.callables.map Callable.route := by
  rw [hasCallable, List.any_eq_true, List.mem_map]
  constructor
  · rintro ⟨c, hc, h⟩
    rw [Bool.and_eq_true, beq_iff_eq, beq_iff_eq] at h
    exact ⟨c, hc, Prod.ext h.1 h.2⟩
  · rintro ⟨c, hc, h⟩
    obtain ⟨hpath, hmethod⟩ := Prod.mk.inj h
    exact ⟨c, hc, by rw [Bool.and_eq_true, beq_iff_eq, beq_iff_eq]; exact ⟨hpath, hmethod⟩⟩

/-- A method is added if its name is free. -/
theorem addCallable_eq_ok (h : draft.addCallable plan op = .ok next) :
    op.methodName ∉ draft.callables.map Callable.name ∧ next = draft.withCallable plan op := by
  rw [addCallable.eq_def] at h
  cases hfind : draft.callables.find? fun c => c.name == op.methodName with
  | some owner =>
    rw [hfind] at h
    cases h
  | none =>
    rw [hfind] at h
    refine ⟨fun hmem => ?_, (Except.ok.inj h).symm⟩
    obtain ⟨c, hc, hname⟩ := List.mem_map.mp hmem
    exact List.find?_eq_none.mp hfind c hc (beq_iff_eq.mpr hname)

/-- Where a method cannot be added, another one has its name. -/
theorem addCallable_eq_error {clash : NameClash}
    (h : draft.addCallable plan op = .error clash) :
    ∃ owner ∈ draft.callables, owner.name = op.methodName := by
  rw [addCallable.eq_def] at h
  cases hfind : draft.callables.find? fun c => c.name == op.methodName with
  | some owner =>
    have hname := List.find?_some hfind
    exact ⟨owner, List.mem_of_find?_eq_some hfind, beq_iff_eq.mp hname⟩
  | none =>
    rw [hfind] at h
    cases h

theorem expose_eq (draft : Draft) (plan : Plan) (op : AnalyzedOperation) :
    draft.expose plan op =
      match (draft.group op.tag).get? (plan.exposed op) with
      | some previous =>
        if previous.methodName = op.methodName then .ok (draft.withMember plan op)
        else .error ⟨plan.exposed op, previous.label, op.label, some op.tag⟩
      | none => .ok (draft.withMember plan op) := rfl

/-- An operation is exposed if its name is free in the group, or leads to the same method there. -/
theorem expose_eq_ok (h : draft.expose plan op = .ok next) :
    (∀ previous, (draft.group op.tag).get? (plan.exposed op) = some previous →
      previous.methodName = op.methodName) ∧ next = draft.withMember plan op := by
  rw [expose_eq] at h
  cases hget : (draft.group op.tag).get? (plan.exposed op) with
  | none =>
    rw [hget] at h
    exact ⟨fun _ hsome => absurd hsome (by simp), (Except.ok.inj h).symm⟩
  | some previous =>
    rw [hget] at h
    dsimp only at h
    split at h
    · rename_i hname
      refine ⟨fun other hother => ?_, (Except.ok.inj h).symm⟩
      rw [← Option.some_inj.mp hother]
      exact hname
    · cases h

/-- Where an operation cannot be exposed, its name leads to another method in the group. -/
theorem expose_eq_error {clash : NameClash} (h : draft.expose plan op = .error clash) :
    ∃ previous, (draft.group op.tag).get? (plan.exposed op) = some previous ∧
      previous.methodName ≠ op.methodName := by
  rw [expose_eq] at h
  cases hget : (draft.group op.tag).get? (plan.exposed op) with
  | none =>
    rw [hget] at h
    cases h
  | some previous =>
    rw [hget] at h
    dsimp only at h
    split at h
    · cases h
    · rename_i hname
      exact ⟨previous, rfl, hname⟩

theorem add_known (h : draft.hasCallable op = true) :
    Draft.add plan draft op = draft.expose plan op := by
  rw [add.eq_def, h]
  rfl

theorem add_new (h : draft.hasCallable op = false) :
    Draft.add plan draft op =
      draft.addCallable plan op >>= fun middle => middle.expose plan op := by
  rw [add.eq_def, h]
  rfl

/-- What one more operation does: it adds a method if there is none for it, and then a member. -/
theorem add_eq_ok (h : Draft.add plan draft op = .ok next) :
    (draft.hasCallable op = true ∧ draft.expose plan op = .ok next) ∨
    (draft.hasCallable op = false ∧
      ∃ middle, draft.addCallable plan op = .ok middle ∧ middle.expose plan op = .ok next) := by
  cases hhas : draft.hasCallable op with
  | true =>
    rw [add_known hhas] at h
    exact Or.inl ⟨rfl, h⟩
  | false =>
    rw [add_new hhas] at h
    exact Or.inr ⟨rfl, Outcome.bind_eq_ok_iff.mp h⟩

/-- Where one more operation cannot be taken: its method cannot be added, or it cannot be
exposed. -/
theorem add_eq_error {clash : NameClash} (h : Draft.add plan draft op = .error clash) :
    (draft.hasCallable op = false ∧ draft.addCallable plan op = .error clash) ∨
    ∃ middle : Draft, middle.groups = draft.groups ∧ middle.expose plan op = .error clash := by
  cases hhas : draft.hasCallable op with
  | true =>
    rw [add_known hhas] at h
    exact Or.inr ⟨draft, rfl, h⟩
  | false =>
    rw [add_new hhas] at h
    rcases Outcome.bind_eq_error_iff.mp h with hadd | ⟨middle, hmiddle, hexpose⟩
    · exact Or.inl ⟨rfl, hadd⟩
    · refine Or.inr ⟨middle, ?_, hexpose⟩
      rw [(addCallable_eq_ok hmiddle).2]
      rfl

end Draft

end Client

end TypedClient

import Mathlib.Data.List.Forall2
import TypedClient.Document.Reading
import TypedClient.Proofs.Outcome

/-!
# Readings that collect notes

A sequence of readings succeeds if each of them does, and a list is read element by element.  A
reading of a component gives the component or nothing, so what is read of a list of components is
what its elements give, without those that give nothing.

* `Noting.bind_eq_ok`: what a sequence of readings needs to succeed.
* `Noting.forall₂_each`: the elements of a list and what was read of them.
* `Noting.fails_bind_iff`, `Noting.fails_each_iff`: when readings fail.
* `Noting.makes_bind`, `Noting.makes_each`: the notes that readings make.
* `exists_first_of_filterMap`: the first component that was read of a list.
* `Document.component?`, `Document.components`: what is read of references to components, which
  never fails.
* `Document.parts_of_ofValue`: the two readings that a document is put together from.
-/

namespace TypedClient

variable {α β : Type}

namespace Noting

/-- What a sequence of readings needs to succeed. -/
theorem bind_eq_ok {m : Noting α} {f : α → Noting β} {b : β} {notes : List Diagnostic}
    (h : (m >>= f) = .ok (b, notes)) :
    ∃ a first more, m = .ok (a, first) ∧ f a = .ok (b, more) ∧ notes = first ++ more := by
  change Noting.bind m f = _ at h
  rcases m with misfit | ⟨a, first⟩
  · cases h
  · rw [Noting.bind] at h
    rcases hf : f a with misfit | ⟨b', more⟩
    · rw [hf] at h
      cases h
    · rw [hf] at h
      obtain ⟨hb, hnotes⟩ := Prod.mk.inj (Except.ok.inj h)
      exact ⟨a, first, more, rfl, hb ▸ hf, hnotes.symm⟩

/-- A sequence of readings that succeed gives what the second gives. -/
theorem bind_of_eq_ok {m : Noting α} {f : α → Noting β} {a : α} {b : β}
    {first more : List Diagnostic} (hm : m = .ok (a, first)) (hf : f a = .ok (b, more)) :
    (m >>= f) = .ok (b, first ++ more) := by
  change Noting.bind m f = _
  rw [hm, Noting.bind, hf]

theorem pure_eq_ok {a b : α} {notes : List Diagnostic}
    (h : (pure a : Noting α) = .ok (b, notes)) : b = a :=
  (Prod.mk.inj (Except.ok.inj h)).1.symm

theorem quiet_eq_ok {m : Except Misfit α} {a : α} {notes : List Diagnostic}
    (h : quiet m = .ok (a, notes)) : m = .ok a := by
  cases m with
  | error misfit => cases h
  | ok a' => rw [(Prod.mk.inj (Except.ok.inj h)).1]

/-- A list that was read was read element by element. -/
theorem forall₂_each {f : α → Noting β} {l : List α} {found : List β} {notes : List Diagnostic}
    (h : each f l = .ok (found, notes)) :
    List.Forall₂ (fun a b => ∃ made, f a = .ok (b, made)) l found := by
  induction l generalizing found notes with
  | nil =>
    obtain rfl := pure_eq_ok h
    exact .nil
  | cons a rest ih =>
    rw [each] at h
    obtain ⟨b, made, _, hb, h, -⟩ := bind_eq_ok h
    obtain ⟨bs, _, _, hbs, h, -⟩ := bind_eq_ok h
    obtain rfl := pure_eq_ok h
    exact .cons ⟨made, hb⟩ (ih hbs)

/-- A list is read without failing if each element is. -/
theorem exists_each_eq_ok {f : α → Noting β} {g : α → β}
    (h : ∀ a, ∃ notes, f a = .ok (g a, notes)) (l : List α) :
    ∃ notes, each f l = .ok (l.map g, notes) := by
  induction l with
  | nil => exact ⟨[], rfl⟩
  | cons a rest ih =>
    obtain ⟨first, hfirst⟩ := h a
    obtain ⟨more, hmore⟩ := ih
    exact ⟨_, bind_of_eq_ok hfirst (bind_of_eq_ok hmore rfl)⟩

/-! ## Failing -/

/-- The reading meets a misfit. -/
def Fails (m : Noting α) : Prop := ∃ misfit, m = .error misfit

theorem not_fails_ok (found : α × List Diagnostic) : ¬ Fails (.ok found : Noting α) :=
  Outcome.not_fails_ok found

theorem not_fails_pure (a : α) : ¬ Fails (pure a : Noting α) := not_fails_ok (a, [])

/-- A sequence of two readings fails if one of them does, where whether the second fails does not
depend on the result of the first. -/
theorem fails_bind_iff {m : Noting α} {f : α → Noting β} {P : Prop}
    (h : ∀ a notes, m = .ok (a, notes) → (Fails (f a) ↔ P)) : Fails (m >>= f) ↔ Fails m ∨ P := by
  rcases m with misfit | ⟨a, notes⟩
  · exact ⟨fun _ => Or.inl ⟨misfit, rfl⟩, fun _ => ⟨misfit, rfl⟩⟩
  · have hsecond : Fails (Noting.bind (.ok (a, notes)) f) ↔ Fails (f a) := by
      rw [Noting.bind]
      rcases f a with misfit | ⟨b, more⟩
      · exact iff_of_true ⟨misfit, rfl⟩ ⟨misfit, rfl⟩
      · exact iff_of_false (not_fails_ok _) (not_fails_ok _)
    refine (hsecond.trans (h a notes rfl)).trans ?_
    exact ⟨Or.inr, fun hfails => hfails.resolve_left (not_fails_ok _)⟩

/-- A reading whose result is only put into another form fails if the reading does. -/
theorem fails_map_iff (m : Noting α) (f : α → β) :
    Fails (m >>= fun a => pure (f a)) ↔ Fails m := by
  rw [fails_bind_iff fun a _ _ => iff_false_intro (not_fails_pure (f a)), or_false]

theorem fails_quiet_iff {m : Except Misfit α} : Fails (quiet m) ↔ Outcome.Fails m := by
  cases m with
  | error misfit => exact iff_of_true ⟨misfit, rfl⟩ ⟨misfit, rfl⟩
  | ok a => exact iff_of_false (not_fails_ok _) (Outcome.not_fails_ok _)

/-- A list cannot be read if one of its elements cannot. -/
theorem fails_each_iff {f : α → Noting β} {l : List α} :
    Fails (each f l) ↔ ∃ a ∈ l, Fails (f a) := by
  induction l with
  | nil => exact iff_of_false (not_fails_pure _) (by simp)
  | cons a rest ih =>
    simp only [List.mem_cons, or_and_right, exists_or, exists_eq_left, ← ih]
    exact fails_bind_iff fun _ _ _ => fails_map_iff _ _

/-! ## Notes -/

/-- If the reading succeeds, it makes just these notes. -/
def Makes (m : Noting α) (made : List Diagnostic) : Prop :=
  ∀ a notes, m = .ok (a, notes) → notes = made

theorem makes_pure (a : α) : Makes (pure a) [] :=
  fun _ _ h => (Prod.mk.inj (Except.ok.inj h)).2.symm

theorem makes_quiet (m : Except Misfit α) : Makes (quiet m) [] := by
  intro a notes h
  cases m with
  | error misfit => cases h
  | ok a' => exact (Prod.mk.inj (Except.ok.inj h)).2.symm

/-- The notes of a sequence of two readings, where those of the second do not depend on the result
of the first. -/
theorem makes_bind {m : Noting α} {f : α → Noting β} {first more : List Diagnostic}
    (hm : Makes m first) (hf : ∀ a notes, m = .ok (a, notes) → Makes (f a) more) :
    Makes (m >>= f) (first ++ more) := by
  intro b notes h
  obtain ⟨a, made, others, ha, hb, rfl⟩ := bind_eq_ok h
  rw [hm a made ha, hf a made ha b others hb]

/-- A reading that makes no notes adds none to those of the reading behind it. -/
theorem makes_behind {m : Noting α} {f : α → Noting β} {more : List Diagnostic}
    (hm : Makes m []) (hf : ∀ a, Makes (f a) more) : Makes (m >>= f) more :=
  makes_bind hm fun a _ _ => hf a

/-- A reading whose result is only put into another form makes the notes that it makes. -/
theorem makes_map {m : Noting α} {made : List Diagnostic} (hm : Makes m made) (f : α → β) :
    Makes (m >>= fun a => pure (f a)) made := by
  have hbind := makes_bind hm fun a _ _ => makes_pure (f a)
  rw [List.append_nil] at hbind
  exact hbind

/-- The notes of a list are those of its elements, in order. -/
theorem makes_each {f : α → Noting β} {g : α → List Diagnostic} {l : List α}
    (h : ∀ a ∈ l, Makes (f a) (g a)) : Makes (each f l) (l.flatMap g) := by
  induction l with
  | nil => exact makes_pure []
  | cons a rest ih =>
    rw [List.forall_mem_cons] at h
    rw [each, List.flatMap_cons]
    exact makes_bind h.1 fun b _ _ => makes_map (ih h.2) _

end Noting

/-! ## Lists of components -/

/-- What stands on the right of a relation between lists has a partner on the left. -/
theorem exists_of_mem_forall₂ {R : α → β → Prop} {l : List α} {found : List β}
    (h : List.Forall₂ R l found) {b : β} (hb : b ∈ found) : ∃ a ∈ l, R a b := by
  induction h with
  | nil => exact absurd hb List.not_mem_nil
  | @cons a b' rest more hrelated hrest ih =>
    rcases List.mem_cons.mp hb with rfl | hb
    · exact ⟨a, List.mem_cons_self, hrelated⟩
    · obtain ⟨a', ha', hrelated'⟩ := ih hb
      exact ⟨a', List.mem_cons_of_mem _ ha', hrelated'⟩

/-- A component that was read of a list was read of one of its elements. -/
theorem exists_of_mem_filterMap {R : α → Option β → Prop} {l : List α} {found : List (Option β)}
    (h : List.Forall₂ R l found) {b : β} (hb : b ∈ found.filterMap id) :
    ∃ a ∈ l, R a (some b) := by
  obtain ⟨o, ho, rfl⟩ := List.mem_filterMap.mp hb
  exact exists_of_mem_forall₂ h ho

/-- The first component that was read of a list was read behind elements that give nothing. -/
theorem exists_first_of_filterMap {R : α → Option β → Prop} {l : List α} {found : List (Option β)}
    (h : List.Forall₂ R l found) {b : β} {more : List β} (hfirst : found.filterMap id = b :: more) :
    ∃ before a after, l = before ++ a :: after ∧ (∀ x ∈ before, R x none) ∧ R a (some b) := by
  induction h with
  | nil => cases hfirst
  | @cons a o rest others hrelated hrest ih =>
    cases o with
    | some b' =>
      rw [List.filterMap_cons_some (f := id) rfl] at hfirst
      obtain ⟨rfl, -⟩ := List.cons.inj hfirst
      exact ⟨[], a, rest, rfl, fun x hx => absurd hx List.not_mem_nil, hrelated⟩
    | none =>
      rw [List.filterMap_cons_none (f := id) rfl] at hfirst
      obtain ⟨before, a', after, hrest, hbefore, hfound⟩ := ih hfirst
      refine ⟨a :: before, a', after, by rw [hrest, List.cons_append], fun x hx => ?_, hfound⟩
      rcases List.mem_cons.mp hx with rfl | hx
      · exact hrelated
      · exact hbefore x hx

namespace Document

open Noting

variable {root : Value} {location : String}

/-- The object that a value leads to. -/
def component? (root : Value) (location : String) (v : Value) : Option Value :=
  match Reference.follow root location v with
  | .object entries => some (.map entries)
  | _ => none

variable (root location)

/-- What a value leads to is read without failing. -/
theorem exists_dereference_eq (v : Value) :
    ∃ notes, dereference root location v = .ok (component? root location v, notes) := by
  rw [dereference, component?]
  cases Reference.follow root location v with
  | object entries => exact ⟨[], rfl⟩
  | nothing => exact ⟨[], rfl⟩
  | dropped d => exact ⟨[d], rfl⟩

theorem component?_of_dereference {v : Value} {c : Option Value} {notes : List Diagnostic}
    (h : dereference root location v = .ok (c, notes)) : component? root location v = c := by
  obtain ⟨made, hread⟩ := exists_dereference_eq root location v
  exact (Prod.mk.inj (Except.ok.inj (hread.symm.trans h))).1

theorem not_fails_dereference (v : Value) : ¬ Fails (dereference root location v) := by
  obtain ⟨made, hread⟩ := exists_dereference_eq root location v
  rw [hread]
  exact not_fails_ok _

/-- The objects that the elements of a list lead to. -/
def components : Value → List Value
  | .list items => items.filterMap (component? root location)
  | _ => []

/-- What the elements of a list lead to is read without failing. -/
theorem exists_dereferenceAll_eq (v : Value) :
    ∃ notes, dereferenceAll root location v = .ok (components root location v, notes) := by
  cases v with
  | list items =>
    obtain ⟨notes, heach⟩ := exists_each_eq_ok (exists_dereference_eq root location) items
    have hfound : (items.map (component? root location)).filterMap id =
        items.filterMap (component? root location) := List.filterMap_map
    rw [dereferenceAll, components, ← hfound]
    exact ⟨_, bind_of_eq_ok heach rfl⟩
  | _ => exact ⟨[], rfl⟩

theorem components_of_dereferenceAll {v : Value} {found : List Value} {notes : List Diagnostic}
    (h : dereferenceAll root location v = .ok (found, notes)) :
    components root location v = found := by
  obtain ⟨made, hread⟩ := exists_dereferenceAll_eq root location v
  exact (Prod.mk.inj (Except.ok.inj (hread.symm.trans h))).1

theorem not_fails_dereferenceAll (v : Value) : ¬ Fails (dereferenceAll root location v) := by
  obtain ⟨made, hread⟩ := exists_dereferenceAll_eq root location v
  rw [hread]
  exact not_fails_ok _

/-- A document that was read has the schemas and the operations that were read of it, and the notes
on the schemas before those on the operations. -/
theorem parts_of_ofValue {root : Value} {version : String} {doc : Document}
    (h : ofValue root version = .ok doc) :
    ∃ schemaNotes operationNotes, readLibrary root = .ok (doc.schemas, schemaNotes) ∧
      readOperations root = .ok (doc.operations, operationNotes) ∧
      doc.notes = schemaNotes ++ operationNotes := by
  rw [ofValue] at h
  obtain ⟨info, -, h⟩ := Outcome.bind_eq_ok_iff.mp h
  obtain ⟨⟨schemas, schemaNotes⟩, hlibrary, h⟩ := Outcome.bind_eq_ok_iff.mp h
  obtain ⟨⟨operations, operationNotes⟩, hoperations, h⟩ := Outcome.bind_eq_ok_iff.mp h
  obtain rfl := Except.ok.inj h
  exact ⟨schemaNotes, operationNotes, hlibrary, hoperations, rfl⟩

end Document

end TypedClient

import TypedClient.Library
import TypedClient.Proofs.Chain

/-!
# Resolving references

A reference is resolved by following the schemas it leads to, each by a look-up of its target.  The
names on the way are remembered so that a chain that comes back to one of them is given up.  Nothing
is lost by that: a chain that ends is never in one place twice, since each schema leads to at most
one other.

* `follow_reference`: what following does with a reference.
* `Leads`, `Ends`: one look-up, and a chain of look-ups that ends in a schema that is no reference.
* `Stops`, `not_circular_of_stops`: where a chain goes no further, it has not come back.
* `resolve_eq_ok_iff`: resolving succeeds exactly with the schema that the chain ends in.
* `mem_names_of_resolve`: the target of a reference that resolves is in the library.
-/

namespace TypedClient

/-- Is the schema a mere reference to another one? -/
def Schema.isReference : Schema → Bool
  | .reference _ _ => true
  | _ => false

theorem Schema.isReference_eq_false_iff {s : Schema} :
    s.isReference = false ↔ ∀ target nullable, s ≠ .reference target nullable := by
  cases s <;> simp [Schema.isReference]

namespace Library

open Relation (ReflTransGen TransGen)

variable {lib : Library}

/-- Following a reference ends in a circle, in a name that is not there, or goes on behind it. -/
theorem follow_reference (place : Option String) (visited : List String) (target : String)
    (nullable : Bool) :
    lib.follow place visited (.reference target nullable) =
      if visited.contains target then
        .error (.circular (visited ++ [target]) place)
      else
        match lib.schemas.get? target with
        | none => .error (.unknown target place)
        | some next => lib.follow place (visited ++ [target]) next := by
  rw [follow.eq_def]
  dsimp only
  by_cases h : visited.contains target = true
  · rw [dif_pos h, if_pos h]
  · rw [dif_neg h, if_neg h]
    split <;> rename_i heq <;> rw [heq]

/-- Following a schema that is no reference ends at once. -/
theorem follow_of_not_isReference {place : Option String} {visited : List String} {s : Schema}
    (h : s.isReference = false) : lib.follow place visited s = .ok s := by
  rw [follow.eq_def]
  cases s with
  | reference target nullable => cases h
  | _ => rfl

/-- A chain that cannot be followed is reported where it was met. -/
theorem location_of_follow {place : Option String} {visited : List String} {a : Schema}
    {error : ResolutionError} (h : lib.follow place visited a = .error error) :
    error.location = place := by
  induction visited, a using follow.induct lib with
  | case1 visited target nullable hseen =>
    rw [follow_reference, if_pos hseen] at h
    rw [← Except.error.inj h]
    rfl
  | case2 visited target nullable hnew hget =>
    rw [follow_reference, if_neg hnew, hget] at h
    rw [← Except.error.inj h]
    rfl
  | case3 visited target nullable hnew next hget ih =>
    rw [follow_reference, if_neg hnew, hget] at h
    exact ih h
  | case4 visited a ha =>
    rw [follow_of_not_isReference (Schema.isReference_eq_false_iff.mpr ha)] at h
    cases h

/-- How a reference resolves does not depend on its being nullable. -/
theorem resolve_reference_nullable (place : Option String) (target : String)
    (nullable other : Bool) :
    lib.resolve (.reference target nullable) place =
      lib.resolve (.reference target other) place := by
  rw [resolve, resolve, follow_reference, follow_reference]

/-! ## Chains of references -/

/-- A reference leads to the schema that its target names. -/
def Leads (lib : Library) (a b : Schema) : Prop :=
  ∃ target nullable, a = .reference target nullable ∧ lib.schemas.get? target = some b

/-- The chain of references that starts with a schema ends in a schema that is no reference. -/
def Ends (lib : Library) (a s : Schema) : Prop :=
  ReflTransGen lib.Leads a s ∧ s.isReference = false

theorem Leads.unique {a b c : Schema} (hb : lib.Leads a b) (hc : lib.Leads a c) : b = c := by
  obtain ⟨target, nullable, rfl, hget⟩ := hb
  obtain ⟨_, _, heq, hget'⟩ := hc
  obtain ⟨rfl, -⟩ := Schema.reference.inj heq
  exact Option.some_inj.mp (hget.symm.trans hget')

theorem not_leads_of_not_isReference {s b : Schema} (h : s.isReference = false) :
    ¬ lib.Leads s b := by
  rintro ⟨target, nullable, rfl, -⟩
  cases h

/-- No schema follows in the chain: it is no reference, or one to a name that is not there. -/
def Stops (lib : Library) (s : Schema) : Prop := ∀ b, ¬ lib.Leads s b

theorem rightUnique_leads : Relator.RightUnique lib.Leads := fun _ _ _ hb hc => hb.unique hc

/-- A chain that stops does not come back to where it started. -/
theorem not_circular_of_stops {a s : Schema} (hchain : ReflTransGen lib.Leads a s)
    (hs : lib.Stops s) : ¬ TransGen lib.Leads a a :=
  Chain.not_circular_of_stops rightUnique_leads hchain hs

/-- A chain that ends does not come back to where it started. -/
theorem Ends.not_circular {a s : Schema} (h : lib.Ends a s) : ¬ TransGen lib.Leads a a :=
  not_circular_of_stops h.1 fun _ => not_leads_of_not_isReference h.2

/-- Following succeeds only with the end of the chain. -/
theorem ends_of_follow {place : Option String} {visited : List String} {a s : Schema}
    (h : lib.follow place visited a = .ok s) : lib.Ends a s := by
  induction visited, a using follow.induct lib with
  | case1 visited target nullable hseen =>
    rw [follow_reference, if_pos hseen] at h
    cases h
  | case2 visited target nullable hnew hget =>
    rw [follow_reference, if_neg hnew, hget] at h
    cases h
  | case3 visited target nullable hnew next hget ih =>
    rw [follow_reference, if_neg hnew, hget] at h
    obtain ⟨hchain, hs⟩ := ih h
    exact ⟨ReflTransGen.head ⟨target, nullable, rfl, hget⟩ hchain, hs⟩
  | case4 visited a ha =>
    have hreference := Schema.isReference_eq_false_iff.mpr ha
    rw [follow_of_not_isReference hreference] at h
    obtain rfl := Except.ok.inj h
    exact ⟨ReflTransGen.refl, hreference⟩

/-- Following reaches the end of a chain, if no name on the chain was visited before. -/
theorem follow_of_ends {place : Option String} {a s : Schema} (h : lib.Ends a s)
    {visited : List String}
    (hvisited : ∀ name ∈ visited, ∀ nullable,
      ¬ ReflTransGen lib.Leads a (.reference name nullable)) :
    lib.follow place visited a = .ok s := by
  obtain ⟨hchain, hs⟩ := h
  induction hchain using ReflTransGen.head_induction_on generalizing visited with
  | refl => exact follow_of_not_isReference hs
  | @head a b hstep hrest ih =>
    obtain ⟨target, nullable, rfl, hget⟩ := id hstep
    have hnew : visited.contains target = false := by
      rw [List.contains_eq_mem, decide_eq_false_iff_not]
      exact fun hmem => hvisited target hmem nullable ReflTransGen.refl
    rw [follow_reference, hnew, if_neg Bool.false_ne_true, hget]
    refine ih fun name hname nullable' hback => ?_
    rcases List.mem_append.mp hname with hold | hself
    · exact hvisited name hold nullable' (ReflTransGen.head hstep hback)
    · -- the chain would come back to the target, and so to the schema that the target names
      obtain rfl := List.mem_singleton.mp hself
      exact Ends.not_circular ⟨hrest, hs⟩
        (TransGen.tail'_iff.mpr ⟨_, hback, name, nullable', rfl, hget⟩)

/-- A schema resolves exactly to the end of its chain of references. -/
theorem resolve_eq_ok_iff {place : Option String} {a s : Schema} :
    lib.resolve a place = .ok s ↔ lib.Ends a s :=
  ⟨ends_of_follow, fun h => follow_of_ends h fun _ hname => absurd hname List.not_mem_nil⟩

/-- The target of a reference that resolves is in the library. -/
theorem mem_names_of_resolve {target : String} {nullable : Bool} {place : Option String}
    {concrete : Schema} (h : lib.resolve (.reference target nullable) place = .ok concrete) :
    target ∈ lib.schemas.names := by
  rw [resolve, follow_reference] at h
  cases hget : lib.schemas.get? target with
  | none =>
    rw [hget] at h
    exact absurd h (by simp)
  | some next => exact mem_names_of_get? hget

end Library

end TypedClient

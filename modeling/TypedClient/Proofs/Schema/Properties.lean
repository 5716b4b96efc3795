import TypedClient.Schema

/-!
# The properties in a schema

An object schema has properties, and so have the objects that stand inside another schema: as a
property, as the schema of further properties, as the items of an array or as a member of a
composition, at any depth.  References are not followed.  A document that needs projections is one
in which such a property belongs to one direction only.

* `HasProperty`: a property of an object anywhere in the schema's own tree.
* `hasModifier_iff`: what the search for properties of one direction finds.
-/

namespace TypedClient

/-- The property belongs to one direction only. -/
def PropertyOf.IsDirected {S : Type} (p : PropertyOf S) : Prop :=
  p.readOnly = true ∨ p.writeOnly = true

namespace Schema

/-- The property `p` is one of an object in the schema's own tree. -/
inductive HasProperty (p : String × PropertyOf Schema) : Schema → Prop
  | own {properties : List (String × PropertyOf Schema)} {additional : AdditionalOf Schema}
      {nullable : Bool} (hp : p ∈ properties) :
      HasProperty p (.object properties additional nullable)
  | property {properties : List (String × PropertyOf Schema)} {additional : AdditionalOf Schema}
      {nullable : Bool} {q : String × PropertyOf Schema} (hq : q ∈ properties)
      (h : HasProperty p q.2.schema) : HasProperty p (.object properties additional nullable)
  | additional {properties : List (String × PropertyOf Schema)} {s : Schema} {nullable : Bool}
      (h : HasProperty p s) : HasProperty p (.object properties (.schema s) nullable)
  | items {items : Schema} {nullable : Bool} (h : HasProperty p items) :
      HasProperty p (.array items nullable)
  | member {mode : Composition} {members : List Schema} {nullable : Bool} {m : Schema}
      (hm : m ∈ members) (h : HasProperty p m) : HasProperty p (.composite mode members nullable)

/-! ## The search finds no other -/

mutual

theorem exists_directed_of_hasModifier : ∀ {s : Schema}, s.hasModifier = true →
    ∃ p, s.HasProperty p ∧ p.2.IsDirected
  | .object properties additional _, h => by
    rw [hasModifier, Bool.or_eq_true] at h
    rcases h with h | h
    · rcases exists_directed_of_propertiesHaveModifier h with
        ⟨p, hp, hdirected⟩ | ⟨q, hq, p, hp, hdirected⟩
      · exact ⟨p, .own hp, hdirected⟩
      · exact ⟨p, .property hq hp, hdirected⟩
    · obtain ⟨s, rfl, p, hp, hdirected⟩ := exists_directed_of_additionalHasModifier h
      exact ⟨p, .additional hp, hdirected⟩
  | .array items _, h => by
    rw [hasModifier] at h
    obtain ⟨p, hp, hdirected⟩ := exists_directed_of_hasModifier h
    exact ⟨p, .items hp, hdirected⟩
  | .composite _ members _, h => by
    rw [hasModifier] at h
    obtain ⟨m, hm, p, hp, hdirected⟩ := exists_directed_of_membersHaveModifier h
    exact ⟨p, .member hm hp, hdirected⟩
  | .reference _ _, h => by cases h
  | .primitive _ _ _ _, h => by cases h
  | .untyped _ _, h => by cases h

theorem exists_directed_of_propertiesHaveModifier :
    ∀ {properties : List (String × PropertyOf Schema)}, propertiesHaveModifier properties = true →
      (∃ p ∈ properties, p.2.IsDirected) ∨
        ∃ q ∈ properties, ∃ p, q.2.schema.HasProperty p ∧ p.2.IsDirected
  | (name, ⟨schema, required, readOnly, writeOnly⟩) :: rest, h => by
    rw [propertiesHaveModifier, Bool.or_eq_true, Bool.or_eq_true, Bool.or_eq_true] at h
    rcases h with (h | h) | h
    · exact Or.inl ⟨_, List.mem_cons_self, h⟩
    · obtain ⟨p, hp, hdirected⟩ := exists_directed_of_hasModifier h
      exact Or.inr ⟨_, List.mem_cons_self, p, hp, hdirected⟩
    · rcases exists_directed_of_propertiesHaveModifier h with ⟨p, hp, hdirected⟩ | ⟨q, hq, hrest⟩
      · exact Or.inl ⟨p, List.mem_cons_of_mem _ hp, hdirected⟩
      · exact Or.inr ⟨q, List.mem_cons_of_mem _ hq, hrest⟩

theorem exists_directed_of_additionalHasModifier : ∀ {additional : AdditionalOf Schema},
    additionalHasModifier additional = true →
      ∃ s, additional = .schema s ∧ ∃ p, s.HasProperty p ∧ p.2.IsDirected
  | .schema s, h => by
    rw [additionalHasModifier] at h
    exact ⟨s, rfl, exists_directed_of_hasModifier h⟩

theorem exists_directed_of_membersHaveModifier : ∀ {members : List Schema},
    membersHaveModifier members = true →
      ∃ m ∈ members, ∃ p, m.HasProperty p ∧ p.2.IsDirected
  | s :: rest, h => by
    rw [membersHaveModifier, Bool.or_eq_true] at h
    rcases h with h | h
    · exact ⟨s, List.mem_cons_self, exists_directed_of_hasModifier h⟩
    · obtain ⟨m, hm, hrest⟩ := exists_directed_of_membersHaveModifier h
      exact ⟨m, List.mem_cons_of_mem _ hm, hrest⟩

end

/-! ## The search misses none -/

theorem propertiesHaveModifier_of_mem {properties : List (String × PropertyOf Schema)}
    {q : String × PropertyOf Schema} (hq : q ∈ properties)
    (h : q.2.IsDirected ∨ q.2.schema.hasModifier = true) :
    propertiesHaveModifier properties = true := by
  induction properties with
  | nil => exact absurd hq List.not_mem_nil
  | cons head rest ih =>
    obtain ⟨name, ⟨schema, required, readOnly, writeOnly⟩⟩ := head
    rw [propertiesHaveModifier, Bool.or_eq_true, Bool.or_eq_true, Bool.or_eq_true]
    rcases List.mem_cons.mp hq with rfl | hq
    · exact Or.inl h
    · exact Or.inr (ih hq)

theorem membersHaveModifier_of_mem {members : List Schema} {m : Schema} (hm : m ∈ members)
    (h : m.hasModifier = true) : membersHaveModifier members = true := by
  induction members with
  | nil => exact absurd hm List.not_mem_nil
  | cons s rest ih =>
    rw [membersHaveModifier, Bool.or_eq_true]
    rcases List.mem_cons.mp hm with rfl | hm
    · exact Or.inl h
    · exact Or.inr (ih hm)

/-- A property of one direction is found wherever it stands. -/
theorem HasProperty.hasModifier {s : Schema} {p : String × PropertyOf Schema} (h : s.HasProperty p)
    (hdirected : p.2.IsDirected) : s.hasModifier = true := by
  induction h with
  | own hp =>
    rw [Schema.hasModifier, Bool.or_eq_true]
    exact Or.inl (propertiesHaveModifier_of_mem hp (Or.inl hdirected))
  | property hq _ ih =>
    rw [Schema.hasModifier, Bool.or_eq_true]
    exact Or.inl (propertiesHaveModifier_of_mem hq (Or.inr ih))
  | additional _ ih =>
    rw [Schema.hasModifier, Bool.or_eq_true, additionalHasModifier]
    exact Or.inr ih
  | items _ ih =>
    rw [Schema.hasModifier]
    exact ih
  | member hm _ ih =>
    rw [Schema.hasModifier]
    exact membersHaveModifier_of_mem hm ih

/-- The search for properties of one direction goes to every property in the schema's own tree. -/
theorem hasModifier_iff {s : Schema} :
    s.hasModifier = true ↔ ∃ p, s.HasProperty p ∧ p.2.IsDirected :=
  ⟨exists_directed_of_hasModifier, fun ⟨_, hp, hdirected⟩ => hp.hasModifier hdirected⟩

end Schema

end TypedClient

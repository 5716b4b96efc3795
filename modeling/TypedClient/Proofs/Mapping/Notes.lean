import TypedClient.Proofs.Mapping.Parts

/-!
# The notes that mapping raises

Mapping notes shapes that it does not support, and nothing else: a schema without a type, if there is
a reason for that, and a composition without members.  Such a schema may stand anywhere in the tree
that is mapped; its note names the location to which mapping has come.

* `Mapping.gap?`: why a schema has no type.
* `Mapping.Raises`: a schema without a type, with its location in the tree of another.
* `Mapping.raises_of_mem_notes`: every note that mapping raises is that of such a schema.
* `Mapping.code_of_mem_notes`: it has the code of such notes.
-/

namespace TypedClient.Mapping

variable {lib : Library} {ctx : Context} {d : Diagnostic}

/-- The code of the notes that mapping raises. -/
def unsupportedCode : String := "unsupported-schema-shape"

/-- Why a schema has no type, if that is noted. -/
def gap? : Schema → Option String
  | .untyped reason _ => if reason.isEmpty then none else some reason
  | .composite mode [] _ => some ("empty " ++ keyword mode)
  | _ => none

/-- The note is that of a schema without a type, which stands in the tree of another at the location
that the note names; the location of the other schema is given. -/
inductive Raises (d : Diagnostic) : String → Schema → Prop
  | own {location reason : String} {s : Schema} (hgap : gap? s = some reason)
      (hd : d = unsupported reason location) : Raises d location s
  | member {location : String} {mode : Composition} {members : List Schema} {nullable : Bool}
      {i : Nat} {s : Schema} (hs : members[i]? = some s)
      (h : Raises d (location ++ "/" ++ keyword mode ++ "/" ++ toString i) s) :
      Raises d location (.composite mode members nullable)
  | items {location : String} {items : Schema} {nullable : Bool}
      (h : Raises d (location ++ "/items") items) : Raises d location (.array items nullable)
  | property {location : String} {properties : List (String × PropertyOf Schema)}
      {additional : AdditionalOf Schema} {nullable : Bool} {p : String × PropertyOf Schema}
      (hp : p ∈ properties) (h : Raises d (location ++ "/properties/" ++ p.1) p.2.schema) :
      Raises d location (.object properties additional nullable)
  | additional {location : String} {properties : List (String × PropertyOf Schema)} {s : Schema}
      {nullable : Bool} (h : Raises d (location ++ "/additionalProperties") s) :
      Raises d location (.object properties (.schema s) nullable)

theorem raises_of_mem_mapUntyped {reason location : String} {nullable : Bool}
    (h : d ∈ (mapUntyped reason nullable location).notes) :
    Raises d location (.untyped reason nullable) := by
  rw [mapUntyped] at h
  split at h
  · exact absurd h List.not_mem_nil
  · rename_i hreason
    exact .own (by rw [gap?, if_neg hreason]) (List.mem_singleton.mp h)

/-- A composition has the notes of its members, and one of its own if it has none. -/
theorem mem_notes_combine {mode : Composition} {location : String}
    {members : Mapped (List TypeExpr)} (h : d ∈ (combine mode location members).notes) :
    d ∈ members.notes ∨
      members.result = [] ∧ d = unsupported ("empty " ++ keyword mode) location := by
  obtain ⟨types, references, notes⟩ := members
  match types with
  | [] =>
    refine Or.inr ⟨rfl, ?_⟩
    cases mode <;> exact List.mem_singleton.mp h
  | [type] => exact Or.inl h
  | type :: other :: rest => exact Or.inl h

/-- Each member has a type. -/
theorem length_result_mapMembers {schemas : List Schema} {place : String} {position : Nat}
    {m : Mapped (List TypeExpr)} (h : mapMembers lib ctx place position schemas = .ok m) :
    m.result.length = schemas.length := by
  induction schemas generalizing position m with
  | nil =>
    rw [mapMembers] at h
    obtain rfl := Except.ok.inj h
    rfl
  | cons schema rest ih =>
    rw [mapMembers] at h
    obtain ⟨first, -, h⟩ := Outcome.bind_eq_ok_iff.mp h
    obtain ⟨others, hothers, h⟩ := Outcome.bind_eq_ok_iff.mp h
    obtain rfl := Except.ok.inj h
    exact congrArg (· + 1) (ih hothers)

mutual

/-- A note that mapping raises is that of a schema without a type in the tree that is mapped. -/
theorem raises_of_mem_notes : ∀ (schema : Schema) {location : String} {m : Mapped TypeExpr},
    map lib ctx location schema = .ok m → ∀ d ∈ m.notes, Raises d location schema
  | .reference target nullable, location, m, h => by
    rw [map, mapReference] at h
    obtain ⟨concrete, -, h⟩ := Outcome.bind_eq_ok_iff.mp h
    obtain rfl := Except.ok.inj h
    exact fun d hd => absurd hd List.not_mem_nil
  | .composite mode members _, location, m, h => by
    rw [map] at h
    obtain ⟨mapped, hmembers, h⟩ := Outcome.bind_eq_ok_iff.mp h
    obtain rfl := Except.ok.inj h
    intro d hd
    rcases mem_notes_combine hd with hd | ⟨hnone, hd⟩
    · obtain ⟨i, s, hs, hraises⟩ := raises_of_mem_membersNotes members hmembers d hd
      rw [Nat.zero_add] at hraises
      exact .member hs hraises
    · have hlength := length_result_mapMembers hmembers
      rw [hnone] at hlength
      obtain rfl := List.length_eq_zero_iff.mp hlength.symm
      exact .own rfl hd
  | .array items _, location, m, h => by
    rw [map] at h
    obtain ⟨mapped, hitems, h⟩ := Outcome.bind_eq_ok_iff.mp h
    obtain rfl := Except.ok.inj h
    exact fun d hd => .items (raises_of_mem_notes items hitems d hd)
  | .object properties additional _, location, m, h => by
    rw [map] at h
    obtain ⟨fields, hfields, h⟩ := Outcome.bind_eq_ok_iff.mp h
    obtain ⟨index, hindex, h⟩ := Outcome.bind_eq_ok_iff.mp h
    obtain rfl := Except.ok.inj h
    intro d hd
    rcases List.mem_append.mp hd with hd | hd
    · obtain ⟨p, hp, hraises⟩ := raises_of_mem_propertiesNotes properties hfields d hd
      exact .property hp hraises
    · obtain ⟨s, rfl, hraises⟩ := raises_of_mem_additionalNotes additional hindex d hd
      exact .additional hraises
  | .primitive kind format permitted nullable, location, m, h => by
    rw [map] at h
    obtain rfl := Except.ok.inj h
    exact fun d hd => absurd hd List.not_mem_nil
  | .untyped reason nullable, location, m, h => by
    rw [map] at h
    obtain rfl := Except.ok.inj h
    exact fun d hd => raises_of_mem_mapUntyped hd

/-- `raises_of_mem_notes` for the members of a composition. -/
theorem raises_of_mem_membersNotes : ∀ (schemas : List Schema) {place : String} {position : Nat}
    {m : Mapped (List TypeExpr)}, mapMembers lib ctx place position schemas = .ok m →
    ∀ d ∈ m.notes, ∃ i s, schemas[i]? = some s ∧ Raises d (place ++ toString (position + i)) s
  | [], place, position, m, h => by
    rw [mapMembers] at h
    obtain rfl := Except.ok.inj h
    exact fun d hd => absurd hd List.not_mem_nil
  | schema :: rest, place, position, m, h => by
    rw [mapMembers] at h
    obtain ⟨first, hfirst, h⟩ := Outcome.bind_eq_ok_iff.mp h
    obtain ⟨others, hothers, h⟩ := Outcome.bind_eq_ok_iff.mp h
    obtain rfl := Except.ok.inj h
    intro d hd
    rcases List.mem_append.mp hd with hd | hd
    · exact ⟨0, schema, rfl, raises_of_mem_notes schema hfirst d hd⟩
    · obtain ⟨i, s, hs, hraises⟩ := raises_of_mem_membersNotes rest hothers d hd
      rw [Nat.add_right_comm] at hraises
      exact ⟨i + 1, s, hs, hraises⟩

/-- `raises_of_mem_notes` for the properties of an object. -/
theorem raises_of_mem_propertiesNotes : ∀ (properties : List (String × PropertyOf Schema))
    {location : String} {m : Mapped (List (String × FieldOf TypeExpr))},
    mapProperties lib ctx location properties = .ok m → ∀ d ∈ m.notes,
      ∃ p ∈ properties, Raises d (location ++ "/properties/" ++ p.1) p.2.schema
  | [], location, m, h => by
    rw [mapProperties] at h
    obtain rfl := Except.ok.inj h
    exact fun d hd => absurd hd List.not_mem_nil
  | (name, ⟨schema, required, readOnly, writeOnly⟩) :: rest, location, m, h => by
    rw [mapProperties] at h
    split at h
    · intro d hd
      obtain ⟨p, hp, hraises⟩ := raises_of_mem_propertiesNotes rest h d hd
      exact ⟨p, List.mem_cons_of_mem _ hp, hraises⟩
    · obtain ⟨type, htype, h⟩ := Outcome.bind_eq_ok_iff.mp h
      obtain ⟨others, hothers, h⟩ := Outcome.bind_eq_ok_iff.mp h
      obtain rfl := Except.ok.inj h
      intro d hd
      rcases List.mem_append.mp hd with hd | hd
      · exact ⟨_, List.mem_cons_self, raises_of_mem_notes schema htype d hd⟩
      · obtain ⟨p, hp, hraises⟩ := raises_of_mem_propertiesNotes rest hothers d hd
        exact ⟨p, List.mem_cons_of_mem _ hp, hraises⟩

/-- `raises_of_mem_notes` for the schema of further properties. -/
theorem raises_of_mem_additionalNotes : ∀ (additional : AdditionalOf Schema) {location : String}
    {m : Mapped (Option TypeExpr)}, mapAdditional lib ctx location additional = .ok m →
    ∀ d ∈ m.notes, ∃ s, additional = .schema s ∧ Raises d (location ++ "/additionalProperties") s
  | .schema s, location, m, h => by
    rw [mapAdditional] at h
    obtain ⟨mapped, hs, h⟩ := Outcome.bind_eq_ok_iff.mp h
    obtain rfl := Except.ok.inj h
    exact fun d hd => ⟨s, rfl, raises_of_mem_notes s hs d hd⟩
  | .unsaid, location, m, h => by
    obtain rfl := Except.ok.inj (mapAdditional_unsaid.symm.trans h)
    exact fun d hd => absurd hd List.not_mem_nil
  | .permitted b, location, m, h => by
    obtain rfl := Except.ok.inj (mapAdditional_permitted.symm.trans h)
    exact fun d hd => absurd hd List.not_mem_nil

end

theorem Raises.code_eq {location : String} {s : Schema} (h : Raises d location s) :
    d.code = unsupportedCode := by
  induction h with
  | own hgap hd =>
    rw [hd]
    rfl
  | member hs h ih => exact ih
  | items h ih => exact ih
  | property hp h ih => exact ih
  | additional h ih => exact ih

/-- The code of a note that mapping raises. -/
theorem code_of_mem_notes (schema : Schema) {location : String} {m : Mapped TypeExpr}
    (h : map lib ctx location schema = .ok m) : ∀ d ∈ m.notes, d.code = unsupportedCode :=
  fun d hd => (raises_of_mem_notes schema h d hd).code_eq

end TypedClient.Mapping

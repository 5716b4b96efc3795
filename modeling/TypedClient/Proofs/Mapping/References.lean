import TypedClient.Proofs.Mapping.Mentions
import TypedClient.Proofs.Mapping.Parts

/-!
# The references of a type and those of its schema

Mapping gives the names that a type refers to beside the type.  They can be told from either side.
They are the names of schemas that stand in the type, and they are the type names of the targets
that mapping meets in the schema; what a view hides is in neither.  Where there is no type, the
first reference that does not resolve is to blame: all that stands in front of it resolves, and what
stands behind it does not matter.

* `Mention.typeName`: the name by which a reference appears in a type.
* `mem_references_iff_typeName`: mapping refers to the targets that it meets.
* `map_eq_error_iff`: mapping fails for the first reference that does not resolve.
* `FollowsReferences`, `map_followsReferences`: the two sides of the references, and the failures.
-/

namespace TypedClient.Mapping

open Outcome (failure?)

variable {lib : Library} {ctx : Context}

/-- The name by which a reference appears in a type. -/
def Mention.typeName (lib : Library) (r : Mention) : String := lib.typeName r.target

/-! ## From the schema to the references -/

/-- Members combined refer to what the members refer to, if there are any. -/
theorem references_combine {mode : Composition} {location : String}
    {members : Mapped (List TypeExpr)} (hne : members.result ≠ []) :
    (combine mode location members).references = members.references := by
  obtain ⟨types, references, notes⟩ := members
  match types, hne with
  | [type], _ => rfl
  | type :: other :: rest, _ => rfl

mutual

/-- Mapping refers to the targets of the references that it meets, by their type names. -/
theorem mem_references_iff_typeName : ∀ (schema : Schema) {location : String}
    {m : Mapped TypeExpr}, map lib ctx location schema = .ok m → ∀ n,
      n ∈ m.references ↔ n ∈ (mentions ctx.view location schema).map (Mention.typeName lib)
  | .reference target nullable, location, m, h, n => by
    rw [map, mapReference] at h
    obtain ⟨concrete, -, h⟩ := Outcome.bind_eq_ok_iff.mp h
    obtain rfl := Except.ok.inj h
    rw [mentions, List.map_singleton]
    exact Iff.rfl
  | .composite mode [] _, location, m, h, n => by
    rw [map, mapMembers] at h
    obtain rfl := Except.ok.inj h
    rw [mentions, memberMentions]
    exact Iff.rfl
  | .composite mode (first :: rest) _, location, m, h, n => by
    rw [map] at h
    obtain ⟨mapped, hmembers, h⟩ := Outcome.bind_eq_ok_iff.mp h
    obtain rfl := Except.ok.inj h
    obtain ⟨hne, hmem⟩ := mem_membersReferences_iff_typeName (first :: rest) hmembers
    rw [references_combine (hne (List.cons_ne_nil _ _)), hmem, mentions]
  | .array items _, location, m, h, n => by
    rw [map] at h
    obtain ⟨mapped, hitems, h⟩ := Outcome.bind_eq_ok_iff.mp h
    obtain rfl := Except.ok.inj h
    rw [mentions]
    exact mem_references_iff_typeName items hitems n
  | .object properties additional _, location, m, h, n => by
    rw [map] at h
    obtain ⟨fields, hfields, h⟩ := Outcome.bind_eq_ok_iff.mp h
    obtain ⟨index, hindex, h⟩ := Outcome.bind_eq_ok_iff.mp h
    obtain rfl := Except.ok.inj h
    rw [mentions, List.map_append, List.mem_append,
      ← mem_propertiesReferences_iff_typeName properties hfields,
      ← mem_additionalReferences_iff_typeName additional hindex]
    exact NameSet.mem_union
  | .primitive kind format permitted nullable, location, m, h, n => by
    rw [map] at h
    obtain rfl := Except.ok.inj h
    rw [mentions]
    exact Iff.rfl
  | .untyped reason nullable, location, m, h, n => by
    rw [map] at h
    obtain rfl := Except.ok.inj h
    rw [mentions]
    exact Iff.rfl

/-- `mem_references_iff_typeName` for the members of a composition, which have as many types. -/
theorem mem_membersReferences_iff_typeName : ∀ (schemas : List Schema) {place : String}
    {position : Nat} {m : Mapped (List TypeExpr)},
    mapMembers lib ctx place position schemas = .ok m →
      (schemas ≠ [] → m.result ≠ []) ∧ ∀ n, n ∈ m.references ↔
        n ∈ (memberMentions ctx.view place position schemas).map (Mention.typeName lib)
  | [], place, position, m, h => by
    rw [mapMembers] at h
    obtain rfl := Except.ok.inj h
    rw [memberMentions]
    exact ⟨fun hne => absurd rfl hne, fun _ => Iff.rfl⟩
  | schema :: rest, place, position, m, h => by
    rw [mapMembers] at h
    obtain ⟨first, hfirst, h⟩ := Outcome.bind_eq_ok_iff.mp h
    obtain ⟨others, hothers, h⟩ := Outcome.bind_eq_ok_iff.mp h
    obtain rfl := Except.ok.inj h
    refine ⟨fun _ => List.cons_ne_nil _ _, fun n => ?_⟩
    rw [memberMentions, List.map_append, List.mem_append,
      ← mem_references_iff_typeName schema hfirst,
      ← (mem_membersReferences_iff_typeName rest hothers).2]
    exact NameSet.mem_union

/-- `mem_references_iff_typeName` for the properties of an object. -/
theorem mem_propertiesReferences_iff_typeName :
    ∀ (properties : List (String × PropertyOf Schema)) {location : String}
    {m : Mapped (List (String × FieldOf TypeExpr))},
    mapProperties lib ctx location properties = .ok m → ∀ n, n ∈ m.references ↔
      n ∈ (propertyMentions ctx.view location properties).map (Mention.typeName lib)
  | [], location, m, h, n => by
    rw [mapProperties] at h
    obtain rfl := Except.ok.inj h
    rw [propertyMentions]
    exact Iff.rfl
  | (name, ⟨schema, required, readOnly, writeOnly⟩) :: rest, location, m, h, n => by
    have hdrops : Context.drops { view := ctx.view } readOnly writeOnly =
        ctx.drops readOnly writeOnly := rfl
    rw [mapProperties] at h
    rw [propertyMentions, hdrops]
    split at h
    · rename_i hdropped
      rw [if_pos hdropped]
      exact mem_propertiesReferences_iff_typeName rest h n
    · rename_i hkept
      obtain ⟨type, htype, h⟩ := Outcome.bind_eq_ok_iff.mp h
      obtain ⟨others, hothers, h⟩ := Outcome.bind_eq_ok_iff.mp h
      obtain rfl := Except.ok.inj h
      rw [if_neg hkept, List.map_append, List.mem_append,
        ← mem_references_iff_typeName schema htype,
        ← mem_propertiesReferences_iff_typeName rest hothers]
      exact NameSet.mem_union

/-- `mem_references_iff_typeName` for the properties an object does not name. -/
theorem mem_additionalReferences_iff_typeName : ∀ (additional : AdditionalOf Schema)
    {location : String} {m : Mapped (Option TypeExpr)},
    mapAdditional lib ctx location additional = .ok m → ∀ n, n ∈ m.references ↔
      n ∈ (additionalMentions ctx.view location additional).map (Mention.typeName lib)
  | .schema s, location, m, h, n => by
    rw [mapAdditional] at h
    obtain ⟨mapped, hs, h⟩ := Outcome.bind_eq_ok_iff.mp h
    obtain rfl := Except.ok.inj h
    rw [additionalMentions]
    exact mem_references_iff_typeName s hs n
  | .unsaid, location, m, h, n => by
    obtain rfl := Except.ok.inj (mapAdditional_unsaid.symm.trans h)
    exact Iff.rfl
  | .permitted b, location, m, h, n => by
    obtain rfl := Except.ok.inj (mapAdditional_permitted.symm.trans h)
    exact Iff.rfl

end

/-! ## Failures -/

/-- Mapping fails with the failure of a reference that it meets, all references in front of which
resolve. -/
theorem map_eq_error_iff {location : String} {schema : Schema} {error : ResolutionError} :
    map lib ctx location schema = .error error ↔
      ∃ before r after, mentions ctx.view location schema = before ++ r :: after ∧
        (∀ b ∈ before, b.Resolves lib) ∧ r.failure? lib = some error := by
  rw [← Outcome.failure?_eq_some_iff, failure?_map, List.findSome?_eq_some_iff]
  constructor
  · rintro ⟨before, r, after, hmentions, hr, hbefore⟩
    exact ⟨before, r, after, hmentions,
      fun b hb => Mention.failure?_eq_none_iff.mp (hbefore b hb), hr⟩
  · rintro ⟨before, r, after, hmentions, hbefore, hr⟩
    exact ⟨before, r, after, hmentions, hr,
      fun b hb => Mention.failure?_eq_none_iff.mpr (hbefore b hb)⟩

/-- Mapping fails exactly if a reference that it meets does not resolve. -/
theorem exists_error_iff {location : String} {schema : Schema} :
    (∃ error, map lib ctx location schema = .error error) ↔
      ∃ r ∈ mentions ctx.view location schema, ¬ r.Resolves lib := by
  constructor
  · rintro ⟨error, h⟩
    obtain ⟨r, hr, hfailure⟩ := exists_mention_of_map_error h
    refine ⟨r, hr, fun hresolves => ?_⟩
    rw [Mention.failure?_eq_none_iff.mpr hresolves] at hfailure
    cases hfailure
  · rintro ⟨r, hr, hbroken⟩
    rcases Outcome.ok_or_error (map lib ctx location schema) with hok | herror
    · exact absurd (map_ok_iff.mp hok r hr) hbroken
    · exact herror

/-! ## Both sides -/

/-- Mapping a schema follows its references.  If it gives a type, what it refers to are the names of
schemas in the type, and the type names of the targets that it meets, whose chains all end in a
schema.  It fails exactly if some chain does not end, and then with what resolving the first such
reference gives, at the place of that reference. -/
structure FollowsReferences (lib : Library) (ctx : Context) (location : String)
    (schema : Schema) : Prop where
  named : ∀ m, map lib ctx location schema = .ok m → ∀ n,
    n ∈ m.references ↔ m.result.RefersTo n
  targets : ∀ m, map lib ctx location schema = .ok m → ∀ n,
    n ∈ m.references ↔ ∃ r ∈ mentions ctx.view location schema, n = lib.typeName r.target
  ends : ∀ m, map lib ctx location schema = .ok m →
    ∀ r ∈ mentions ctx.view location schema, ∃ s, lib.Ends (.reference r.target false) s
  fails : (∃ error, map lib ctx location schema = .error error) ↔
    ∃ r ∈ mentions ctx.view location schema, ¬ ∃ s, lib.Ends (.reference r.target false) s
  first : ∀ error, map lib ctx location schema = .error error ↔
    ∃ before r after, mentions ctx.view location schema = before ++ r :: after ∧
      (∀ b ∈ before, ∃ s, lib.Ends (.reference b.target false) s) ∧
      lib.resolve (.reference r.target false) r.place = .error error ∧ error.location = r.place

/-- Every schema is mapped so, in every library, through every view and at every location. -/
theorem map_followsReferences (lib : Library) (ctx : Context) (location : String)
    (schema : Schema) : FollowsReferences lib ctx location schema where
  named := fun _ h _ => mem_references_iff h
  targets := by
    intro m h n
    rw [mem_references_iff_typeName schema h, List.mem_map]
    exact exists_congr fun r => and_congr_right fun _ => eq_comm
  ends := fun m h => map_ok_iff.mp ⟨m, h⟩
  fails := exists_error_iff
  first := by
    intro error
    rw [map_eq_error_iff]
    refine exists_congr fun before => exists_congr fun r => exists_congr fun after =>
      and_congr_right fun _ => and_congr_right fun _ => ?_
    rw [Mention.failure?, Outcome.failure?_eq_some_iff]
    exact (and_iff_left_of_imp Library.location_of_follow).symm

/-- What the view hides is passed over; of the two references that are left the first is reported. -/
example : failure? (map ⟨[]⟩ { view := some .input } "#/x" (.object
    [("id", ⟨.reference "Id" false, true, true, false⟩),
      ("tags", ⟨.array (.reference "Tag" false) false, true, false, false⟩)]
    (.schema (.reference "Any" false)) false)) =
      some (.unknown "Tag" (some "#/x/properties/tags/items")) := by decide +kernel

end TypedClient.Mapping

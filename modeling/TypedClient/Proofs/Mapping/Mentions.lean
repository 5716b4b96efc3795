import TypedClient.Mapping
import TypedClient.Proofs.Library.Resolution
import TypedClient.Proofs.Outcome

/-!
# The references that mapping meets

Mapping goes through a schema's own tree in one order, and every reference that the view does not
hide is resolved on the way.  Nothing else can fail, so mapping fails exactly if one of these
references does, and then with the failure of the first one.

* `Mention`: a reference in the tree of a schema, with its location.
* `mentions`: the references that mapping through a view meets, in order.
* `failure?_map`: mapping fails with the first of them that does not resolve.
* `map_ok_iff`: mapping succeeds exactly if the chain of each of them ends.
* `map_congr`: mapping depends on the library only through them.
* `prefix_of_mem_mentions`: their locations lie below that of the schema.
-/

namespace TypedClient.Mapping

open Outcome (failure?)

variable {lib : Library} {ctx : Context}

/-- A reference that stands at a location in the tree of a schema. -/
structure Mention where
  target : String
  location : String
deriving Repr, DecidableEq

/-- Where the failure of a reference is reported, if anywhere. -/
def Mention.place (m : Mention) : Option String :=
  if m.location.isEmpty then none else some m.location

/-- Why a reference does not resolve, if it does not. -/
def Mention.failure? (lib : Library) (m : Mention) : Option ResolutionError :=
  Outcome.failure? (lib.resolve (.reference m.target false) m.place)

/-- The chain of references that starts with the reference ends. -/
def Mention.Resolves (lib : Library) (m : Mention) : Prop :=
  ∃ s, lib.Ends (.reference m.target false) s

mutual

/-- The references that mapping a schema through a view meets, in order. -/
def mentions (view : Option View) (location : String) : Schema → List Mention
  | .reference target _ => [⟨target, location⟩]
  | .composite mode members _ =>
    memberMentions view (location ++ "/" ++ keyword mode ++ "/") 0 members
  | .array items _ => mentions view (location ++ "/items") items
  | .object properties additional _ =>
    propertyMentions view location properties ++ additionalMentions view location additional
  | .primitive _ _ _ _ => []
  | .untyped _ _ => []

/-- `mentions` for the members of a composition. -/
def memberMentions (view : Option View) (place : String) (position : Nat) :
    List Schema → List Mention
  | [] => []
  | schema :: rest =>
    mentions view (place ++ toString position) schema ++
      memberMentions view place (position + 1) rest

/-- `mentions` for the properties of an object that the view keeps. -/
def propertyMentions (view : Option View) (location : String) :
    List (String × PropertyOf Schema) → List Mention
  | [] => []
  | (name, ⟨schema, _, readOnly, writeOnly⟩) :: rest =>
    if Context.drops { view := view } readOnly writeOnly then propertyMentions view location rest
    else
      mentions view (location ++ "/properties/" ++ name) schema ++
        propertyMentions view location rest

/-- `mentions` for the properties an object does not name. -/
def additionalMentions (view : Option View) (location : String) :
    AdditionalOf Schema → List Mention
  | .schema s => mentions view (location ++ "/additionalProperties") s
  | _ => []

end

theorem failure?_mapReference (location target : String) (nullable : Bool) :
    failure? (mapReference lib ctx location target nullable) =
      Mention.failure? lib ⟨target, location⟩ := by
  rw [mapReference, Mention.failure?, Library.resolve_reference_nullable _ _ nullable false]
  exact Outcome.failure?_map _ _

mutual

/-- Mapping fails with the first reference on its way that does not resolve. -/
theorem failure?_map : ∀ (schema : Schema) (location : String),
    failure? (map lib ctx location schema) =
      (mentions ctx.view location schema).findSome? (Mention.failure? lib)
  | .reference target nullable, location => by
    rw [map, mentions, failure?_mapReference, List.findSome?_singleton]
  | .composite mode members _, location => by
    rw [map, mentions, ← failure?_mapMembers]
    exact Outcome.failure?_map _ _
  | .array items _, location => by
    rw [map, mentions, ← failure?_map items]
    exact Outcome.failure?_map _ _
  | .object properties additional _, location => by
    rw [map, mentions, List.findSome?_append, ← failure?_mapProperties, ← failure?_mapAdditional]
    exact Outcome.failure?_join _ _ _
  | .primitive kind format permitted nullable, location => by
    rw [map, mentions]
    rfl
  | .untyped reason nullable, location => by
    rw [map, mentions]
    rfl

/-- `failure?_map` for the members of a composition. -/
theorem failure?_mapMembers : ∀ (schemas : List Schema) (place : String) (position : Nat),
    failure? (mapMembers lib ctx place position schemas) =
      (memberMentions ctx.view place position schemas).findSome? (Mention.failure? lib)
  | [], place, position => by
    rw [mapMembers, memberMentions]
    rfl
  | schema :: rest, place, position => by
    rw [mapMembers, memberMentions, List.findSome?_append, ← failure?_map schema,
      ← failure?_mapMembers rest]
    exact Outcome.failure?_join _ _ _

/-- `failure?_map` for the properties of an object. -/
theorem failure?_mapProperties : ∀ (properties : List (String × PropertyOf Schema))
    (location : String), failure? (mapProperties lib ctx location properties) =
      (propertyMentions ctx.view location properties).findSome? (Mention.failure? lib)
  | [], location => by
    rw [mapProperties, propertyMentions]
    rfl
  | (name, ⟨schema, required, readOnly, writeOnly⟩) :: rest, location => by
    have hdrops : Context.drops { view := ctx.view } readOnly writeOnly =
        ctx.drops readOnly writeOnly := rfl
    rw [mapProperties, propertyMentions, hdrops]
    split
    · exact failure?_mapProperties rest location
    · rw [List.findSome?_append, ← failure?_map schema, ← failure?_mapProperties rest]
      exact Outcome.failure?_join _ _ _

/-- `failure?_map` for the properties an object does not name. -/
theorem failure?_mapAdditional : ∀ (additional : AdditionalOf Schema) (location : String),
    failure? (mapAdditional lib ctx location additional) =
      (additionalMentions ctx.view location additional).findSome? (Mention.failure? lib)
  | .schema s, location => by
    rw [mapAdditional, additionalMentions, ← failure?_map s]
    exact Outcome.failure?_map _ _
  | .unsaid, location => rfl
  | .permitted b, location => rfl

end

/-- A reference resolves exactly if its chain ends. -/
theorem Mention.failure?_eq_none_iff {m : Mention} : m.failure? lib = none ↔ m.Resolves lib := by
  rw [Mention.failure?, Outcome.failure?_eq_none_iff]
  exact exists_congr fun s => Library.resolve_eq_ok_iff

/-- Mapping succeeds exactly if the chain of every reference on its way ends. -/
theorem map_ok_iff {location : String} {schema : Schema} :
    (∃ mapped, map lib ctx location schema = .ok mapped) ↔
      ∀ m ∈ mentions ctx.view location schema, m.Resolves lib := by
  rw [← Outcome.failure?_eq_none_iff, failure?_map, List.findSome?_eq_none_iff]
  exact forall₂_congr fun m _ => Mention.failure?_eq_none_iff

/-- Where mapping fails, a reference on its way does so, with the same failure. -/
theorem exists_mention_of_map_error {location : String} {schema : Schema} {error : ResolutionError}
    (h : map lib ctx location schema = .error error) :
    ∃ m ∈ mentions ctx.view location schema, m.failure? lib = some error := by
  have hfirst : failure? (map lib ctx location schema) =
      (mentions ctx.view location schema).findSome? (Mention.failure? lib) :=
    failure?_map schema location
  rw [h] at hfirst
  exact List.exists_of_findSome?_eq_some hfirst.symm

theorem Mention.location_of_failure? {m : Mention} {error : ResolutionError}
    (h : m.failure? lib = some error) : error.location = m.place := by
  rw [Mention.failure?] at h
  rcases hresolve : lib.resolve (.reference m.target false) m.place with error' | concrete
  · rw [hresolve] at h
    rw [← Option.some_inj.mp h]
    exact Library.location_of_follow hresolve
  · rw [hresolve] at h
    cases h

/-! ## Libraries that answer alike -/

/-- Two libraries resolve the reference alike and have one type name for its target. -/
structure Mention.Alike (lib other : Library) (m : Mention) : Prop where
  resolve : lib.resolve (.reference m.target false) m.place =
    other.resolve (.reference m.target false) m.place
  typeName : lib.typeName m.target = other.typeName m.target

theorem mapReference_congr {other : Library} {location target : String} {nullable : Bool}
    (h : Mention.Alike lib other ⟨target, location⟩) :
    mapReference lib ctx location target nullable =
      mapReference other ctx location target nullable := by
  have hresolve : lib.resolve (.reference target false)
      (if location.isEmpty then none else some location) =
      other.resolve (.reference target false)
        (if location.isEmpty then none else some location) := h.resolve
  have htypeName : lib.typeName target = other.typeName target := h.typeName
  rw [mapReference, mapReference, Library.resolve_reference_nullable _ _ nullable false,
    Library.resolve_reference_nullable _ _ nullable false, hresolve, htypeName]

mutual

/-- Mapping is the same with two libraries that answer every reference on its way alike. -/
theorem map_congr {other : Library} : ∀ (schema : Schema) (location : String),
    (∀ m ∈ mentions ctx.view location schema, m.Alike lib other) →
      map lib ctx location schema = map other ctx location schema
  | .reference target nullable, location, h => by
    rw [mentions] at h
    rw [map, map]
    exact mapReference_congr (h _ List.mem_cons_self)
  | .composite mode members _, location, h => by
    rw [mentions] at h
    rw [map, map, mapMembers_congr members _ _ h]
  | .array items _, location, h => by
    rw [mentions] at h
    rw [map, map, map_congr items _ h]
  | .object properties additional _, location, h => by
    rw [mentions, List.forall_mem_append] at h
    rw [map, map, mapProperties_congr properties _ h.1, mapAdditional_congr additional _ h.2]
  | .primitive kind format permitted nullable, location, _ => by rw [map, map]
  | .untyped reason nullable, location, _ => by rw [map, map]

/-- `map_congr` for the members of a composition. -/
theorem mapMembers_congr {other : Library} :
    ∀ (schemas : List Schema) (place : String) (position : Nat),
      (∀ m ∈ memberMentions ctx.view place position schemas, m.Alike lib other) →
        mapMembers lib ctx place position schemas = mapMembers other ctx place position schemas
  | [], place, position, _ => by rw [mapMembers, mapMembers]
  | schema :: rest, place, position, h => by
    rw [memberMentions, List.forall_mem_append] at h
    rw [mapMembers, mapMembers, map_congr schema _ h.1, mapMembers_congr rest _ _ h.2]

/-- `map_congr` for the properties of an object. -/
theorem mapProperties_congr {other : Library} :
    ∀ (properties : List (String × PropertyOf Schema)) (location : String),
      (∀ m ∈ propertyMentions ctx.view location properties, m.Alike lib other) →
        mapProperties lib ctx location properties = mapProperties other ctx location properties
  | [], location, _ => by rw [mapProperties, mapProperties]
  | (name, ⟨schema, required, readOnly, writeOnly⟩) :: rest, location, h => by
    have hdrops : Context.drops { view := ctx.view } readOnly writeOnly =
        ctx.drops readOnly writeOnly := rfl
    rw [propertyMentions, hdrops] at h
    rw [mapProperties, mapProperties]
    split
    · rename_i hdropped
      rw [if_pos hdropped] at h
      exact mapProperties_congr rest _ h
    · rename_i hkept
      rw [if_neg hkept, List.forall_mem_append] at h
      rw [map_congr schema _ h.1, mapProperties_congr rest _ h.2]

/-- `map_congr` for the properties an object does not name. -/
theorem mapAdditional_congr {other : Library} : ∀ (additional : AdditionalOf Schema)
    (location : String),
      (∀ m ∈ additionalMentions ctx.view location additional, m.Alike lib other) →
        mapAdditional lib ctx location additional = mapAdditional other ctx location additional
  | .schema s, location, h => by
    rw [additionalMentions] at h
    rw [mapAdditional, mapAdditional, map_congr s _ h]
  | .unsaid, location, _ => rfl
  | .permitted b, location, _ => rfl

end

/-! ## Locations -/

theorem toList_prefix_append (s t : String) : s.toList <+: (s ++ t).toList := by
  rw [String.toList_append]
  exact List.prefix_append _ _

mutual

/-- A reference in the tree of a schema is located below the schema. -/
theorem prefix_of_mem_mentions {view : Option View} {m : Mention} : ∀ (schema : Schema)
    (location : String), m ∈ mentions view location schema →
      location.toList <+: m.location.toList
  | .reference target nullable, location, h => by
    rw [mentions, List.mem_singleton] at h
    subst h
    exact List.prefix_rfl
  | .composite mode members _, location, h => by
    rw [mentions] at h
    have hplace := prefix_of_mem_memberMentions members _ _ h
    rw [String.append_assoc, String.append_assoc] at hplace
    exact (toList_prefix_append _ _).trans hplace
  | .array items _, location, h => by
    rw [mentions] at h
    exact (toList_prefix_append _ _).trans (prefix_of_mem_mentions items _ h)
  | .object properties additional _, location, h => by
    rw [mentions] at h
    rcases List.mem_append.mp h with h | h
    · exact prefix_of_mem_propertyMentions properties _ h
    · exact prefix_of_mem_additionalMentions additional _ h
  | .primitive kind format permitted nullable, location, h => by
    rw [mentions] at h
    exact absurd h List.not_mem_nil
  | .untyped reason nullable, location, h => by
    rw [mentions] at h
    exact absurd h List.not_mem_nil

/-- `prefix_of_mem_mentions` for the members of a composition. -/
theorem prefix_of_mem_memberMentions {view : Option View} {m : Mention} :
    ∀ (schemas : List Schema) (place : String) (position : Nat),
      m ∈ memberMentions view place position schemas → place.toList <+: m.location.toList
  | [], place, position, h => by
    rw [memberMentions] at h
    exact absurd h List.not_mem_nil
  | schema :: rest, place, position, h => by
    rw [memberMentions] at h
    rcases List.mem_append.mp h with h | h
    · exact (toList_prefix_append _ _).trans (prefix_of_mem_mentions schema _ h)
    · exact prefix_of_mem_memberMentions rest _ _ h

/-- `prefix_of_mem_mentions` for the properties of an object. -/
theorem prefix_of_mem_propertyMentions {view : Option View} {m : Mention} :
    ∀ (properties : List (String × PropertyOf Schema)) (location : String),
      m ∈ propertyMentions view location properties → location.toList <+: m.location.toList
  | [], location, h => by
    rw [propertyMentions] at h
    exact absurd h List.not_mem_nil
  | (name, ⟨schema, required, readOnly, writeOnly⟩) :: rest, location, h => by
    rw [propertyMentions] at h
    split at h
    · exact prefix_of_mem_propertyMentions rest _ h
    · rcases List.mem_append.mp h with h | h
      · have hplace := prefix_of_mem_mentions schema _ h
        rw [String.append_assoc] at hplace
        exact (toList_prefix_append _ _).trans hplace
      · exact prefix_of_mem_propertyMentions rest _ h

/-- `prefix_of_mem_mentions` for the properties an object does not name. -/
theorem prefix_of_mem_additionalMentions {view : Option View} {m : Mention} :
    ∀ (additional : AdditionalOf Schema) (location : String),
      m ∈ additionalMentions view location additional → location.toList <+: m.location.toList
  | .schema s, location, h => by
    rw [additionalMentions] at h
    exact (toList_prefix_append _ _).trans (prefix_of_mem_mentions s _ h)
  | .unsaid, location, h => absurd h List.not_mem_nil
  | .permitted b, location, h => absurd h List.not_mem_nil

end

end TypedClient.Mapping

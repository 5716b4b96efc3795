import TypedClient.Proofs.Client.Draft
import TypedClient.Proofs.TypeLibrary.Declarations

/-!
# The types of a client's methods

The types of a method are mapped from the same schemas, through the same views, as the references of
its operation were harvested from, so a name in a type is a reference of the operation.  Parameters
are not seen through a view, so that the projections in the types of a method are those in the types
of its data and of its response.

* `Plan.context`: how the types that are seen through a view, or through none, are mapped.
* `use_of_parameter`, `use_of_body`, `use_of_response`: the schemas that an operation uses.
* `typeOf_emits`: the parts of the type of a schema that an operation uses.
* `made_emits`: the parts of the types of a method.
-/

namespace TypedClient.Client

open TypeExpr (Within)
open Mapping (Emits)

variable {plan : Plan} {op : AnalyzedOperation} {lib : Library}

/-- How the types of a client are mapped: references are seen through the view, if the plan has
views. -/
def Plan.context (plan : Plan) (view : Option View) : Mapping.Context where
  qualifier := plan.qualifier
  view := view
  wrapViews := view.isSome && plan.modifiers

/-- The schemas that an operation uses. -/
def usesOf (op : AnalyzedOperation) : List Analysis.Use :=
  Analysis.uses op.label op.parameters op.requestBody op.responseSchema

theorem use_of_parameter {p : Parameter} {s : Schema} (hp : p ∈ op.parameters)
    (hs : p.schema = some s) :
    ⟨s, none, Analysis.parameterLocation op.label p.name⟩ ∈ usesOf op := by
  refine List.mem_append_left _ (List.mem_append_left _ ?_)
  rw [List.mem_filterMap]
  exact ⟨p, hp, by rw [hs]; rfl⟩

theorem use_of_body {s : Schema} (hs : op.requestBody = some s) :
    ⟨s, some .input, Analysis.bodyLocation op.label⟩ ∈ usesOf op := by
  refine List.mem_append_left _ (List.mem_append_right _ ?_)
  rw [hs]
  exact List.mem_singleton_self _

theorem use_of_response {s : Schema} (hs : op.responseSchema = some s) :
    ⟨s, some .output, Analysis.responseLocation op.label⟩ ∈ usesOf op := by
  refine List.mem_append_right _ ?_
  rw [hs]
  exact List.mem_singleton_self _

/-- Every part of the type of a schema that is used may have been emitted, and every name in it is
harvested. -/
theorem typeOf_emits {ctx : Mapping.Context} {location : String} {schema : Option Schema}
    {list : List Analysis.Use} (huse : ∀ s, schema = some s → ⟨s, ctx.view, location⟩ ∈ list)
    {t : TypeExpr} (ht : Within t (typeOf lib ctx location schema).1) :
    Emits lib ctx (Analysis.harvest lib list).1 t := by
  cases schema with
  | none =>
    obtain rfl := TypeExpr.within_primitive_iff.mp ht
    trivial
  | some s =>
    rw [typeOf] at ht
    rcases hmap : Mapping.map lib ctx location s with error | mapped
    · rw [hmap] at ht
      obtain rfl := TypeExpr.within_primitive_iff.mp ht
      trivial
    · rw [hmap] at ht
      exact (Mapping.sound_map s hmap).emits_of_subset
        (Analysis.subset_harvest_of_map (huse s rfl) rfl hmap) ht

/-! ## The three types of a method -/

theorem parametersType_emits {type : TypeExpr}
    (h : (parametersType plan.lib plan.qualifier op).1 = some type) {t : TypeExpr}
    (ht : Within t type) :
    Emits plan.lib (plan.context none) (Analysis.harvest plan.lib (usesOf op)).1 t := by
  rw [parametersType] at h
  dsimp only at h
  split at h
  · cases h
  · obtain rfl := Option.some_inj.mp h
    generalize hfields : Named.ofList _ = fields at ht
    have hfield : ∀ f ∈ fields, ∃ p ∈ op.parameters, f = (p.name,
        (parameterField plan.lib { qualifier := plan.qualifier } op.label p).1) := by
      intro f hf
      rw [← hfields] at hf
      have hmem := Named.mem_of_mem_ofList hf
      rw [List.map_map] at hmem
      obtain ⟨p, hp, rfl⟩ := List.mem_map.mp hmem
      exact ⟨p, hp, rfl⟩
    cases ht with
    | refl =>
      intro f hf hmark
      obtain ⟨p, -, rfl⟩ := hfield f hf
      cases hmark
    | field hf ht =>
      obtain ⟨p, hp, rfl⟩ := hfield _ hf
      exact typeOf_emits (fun s hs => use_of_parameter hp hs) ht

theorem dataType_emits {type : TypeExpr}
    (h : (dataType plan.lib plan.qualifier plan.modifiers op).1 = some type) {t : TypeExpr}
    (ht : Within t type) :
    Emits plan.lib (plan.context (some .input)) (Analysis.harvest plan.lib (usesOf op)).1 t := by
  rw [dataType] at h
  split at h
  · obtain rfl := Option.some_inj.mp h
    exact typeOf_emits (fun s hs => use_of_body hs) ht
  · cases h

theorem returnType_emits {t : TypeExpr}
    (ht : Within t (returnType plan.lib plan.qualifier plan.modifiers op).1) :
    Emits plan.lib (plan.context (some .output)) (Analysis.harvest plan.lib (usesOf op)).1 t := by
  rw [returnType] at ht
  split at ht
  · split at ht
    · obtain rfl := TypeExpr.within_primitive_iff.mp ht
      trivial
    · rename_i schema hschema
      exact typeOf_emits (fun s hs => use_of_response (hschema.trans hs)) ht
  · obtain rfl := TypeExpr.within_primitive_iff.mp ht
    trivial
  · obtain rfl := TypeExpr.within_primitive_iff.mp ht
    trivial
  · obtain rfl := TypeExpr.within_primitive_iff.mp ht
    trivial

/-- Every part of a type of a method is one that mapping emits, with names that the operation refers
to; if the type is seen through a view, its projections are among those of the method. -/
theorem made_emits (hop : op.references = (Analysis.harvest plan.lib (usesOf op)).1)
    {type : TypeExpr} (htype : type ∈ (plan.made op).types) :
    ∃ view : Option View,
      (∀ t, Within t type → Emits plan.lib (plan.context view) op.references t) ∧
        (view ≠ none → type.viewNames ⊆ (plan.made op).viewNames) := by
  rw [hop]
  rcases List.mem_append.mp htype with hmem | hmem
  · rcases List.mem_append.mp hmem with hmem | hmem
    · exact ⟨none, fun t ht => parametersType_emits (Option.mem_toList.mp hmem) ht,
        fun h => absurd rfl h⟩
    · have hdata : (plan.made op).dataType = some type := Option.mem_toList.mp hmem
      refine ⟨some .input, fun t ht => dataType_emits hdata ht, fun _ => ?_⟩
      rw [Callable.viewNames, hdata]
      exact Mapping.subset_union_left
  · rw [List.mem_singleton] at hmem
    subst hmem
    refine ⟨some .output, fun t ht => returnType_emits ht, fun _ => ?_⟩
    rw [Callable.viewNames]
    split
    · exact Mapping.subset_union_right
    · exact fun _ h => h

end TypedClient.Client

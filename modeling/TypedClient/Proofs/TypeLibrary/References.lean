import TypedClient.Document.Reading
import TypedClient.Proofs.Analysis.Notes
import TypedClient.Proofs.Mapping.Mentions
import TypedClient.Proofs.TypeLibrary.Declarations

/-!
# References in the type library

Whether a schema is declared as what it maps to depends on the references in its own tree alone, and
on how their chains end.  What stands behind the end of a chain does not matter, but a chain goes
through every alias on its way: where an alias refers to nothing, every schema that refers to the
alias is declared as `any`, and the missing target is reported in it.

* `Stands`: a schema is declared as what it maps to, and no reference is reported in it.
* `declaration_of_map_eq_ok`, `declaration_of_map_eq_error`: the declaration of a schema by the way
  its mapping ends.
* `declarations_stand_iff`: the schemas that stand, and where references are reported.
* `not_stands_behind_alias`: references that name schemas of the library are not enough.
-/

namespace TypedClient.TypeLibrary

open Document (schemaLocation)
open Mapping (Mention mentions)

variable {lib : Library} {modifiers : Bool} {name : String} {schema : Schema}

/-- The codes of the diagnostics on references. -/
def referenceCodes : List String := ["unresolved-reference", "circular-reference"]

/-- How a schema is declared that maps to a type: an enumeration by its values, any other schema as
an alias of the type. -/
def declared (lib : Library) (name : String) (type : TypeExpr) : Schema → Declaration
  | .primitive _ _ (first :: more) _ =>
    enumeration (lib.typeName name) (first :: more) (schemaLocation name)
  | _ => .alias (lib.typeName name) type (schemaLocation name)

/-- The references in the tree of a named schema. -/
def mentionsIn (name : String) (schema : Schema) : List Mention :=
  mentions none (schemaLocation name) schema

/-- The named schema is declared as what it maps to, and no reference is reported in it. -/
structure Stands (lib : Library) (modifiers : Bool) (name : String) (schema : Schema) : Prop where
  declared : ∃ mapped,
    Mapping.map lib { markModifiers := modifiers } (schemaLocation name) schema = .ok mapped ∧
      (declaration lib modifiers name schema).1 = declared lib name mapped.result schema
  unreported : ∀ d ∈ (declaration lib modifiers name schema).2, d.code ∉ referenceCodes

/-! ## The declaration of a schema -/

theorem source_eq : "#/components/schemas/" ++ name = schemaLocation name := rfl

theorem declaration_of_map_eq_ok {mapped : Mapping.Mapped TypeExpr}
    (h : Mapping.map lib { markModifiers := modifiers } (schemaLocation name) schema =
      .ok mapped) :
    declaration lib modifiers name schema =
      (declared lib name mapped.result schema, mapped.notes) := by
  rw [declaration.eq_def]
  dsimp only
  split
  · -- an enumeration maps without notes
    rw [Mapping.map] at h
    rw [← Except.ok.inj h]
    rfl
  · rename_i hother
    have halias : declared lib name mapped.result schema =
        .alias (lib.typeName name) mapped.result (schemaLocation name) := by
      rw [declared.eq_def]
      split
      · exact absurd rfl (hother _ _ _ _ _)
      · rfl
    rw [halias, source_eq, h]

theorem declaration_of_map_eq_error {error : ResolutionError}
    (h : Mapping.map lib { markModifiers := modifiers } (schemaLocation name) schema =
      .error error) :
    declaration lib modifiers name schema =
      (.alias (lib.typeName name) .any (schemaLocation name),
        [Analysis.resolutionDiagnostic error (schemaLocation name)]) := by
  rw [declaration.eq_def]
  dsimp only
  split
  · rw [Mapping.map] at h
    cases h
  · rw [source_eq, h]

/-! ## Schemas that stand -/

/-- The notes that mapping raises are not on references. -/
theorem code_notMem_referenceCodes {ctx : Mapping.Context} {location : String}
    {mapped : Mapping.Mapped TypeExpr} (h : Mapping.map lib ctx location schema = .ok mapped)
    {d : Diagnostic} (hd : d ∈ mapped.notes) : d.code ∉ referenceCodes := by
  rw [Mapping.code_of_mem_notes schema h d hd]
  decide

/-- A schema stands exactly if it can be mapped. -/
theorem stands_iff_map : Stands lib modifiers name schema ↔
    ∃ mapped, Mapping.map lib { markModifiers := modifiers } (schemaLocation name) schema =
      .ok mapped := by
  constructor
  · rintro ⟨⟨mapped, h, -⟩, -⟩
    exact ⟨mapped, h⟩
  · rintro ⟨mapped, h⟩
    have hdeclaration := declaration_of_map_eq_ok h
    refine ⟨⟨mapped, h, by rw [hdeclaration]⟩, fun d hd => ?_⟩
    rw [hdeclaration] at hd
    exact code_notMem_referenceCodes h hd

/-- A schema stands exactly if the chain of every reference in its tree ends. -/
theorem stands_iff : Stands lib modifiers name schema ↔
    ∀ m ∈ mentionsIn name schema, m.Resolves lib :=
  stands_iff_map.trans Mapping.map_ok_iff

/-- A location below a named schema is not empty. -/
theorem isEmpty_of_prefix {location : String}
    (h : (schemaLocation name).toList <+: location.toList) : location.isEmpty = false := by
  rw [← Bool.not_eq_true, String.isEmpty_iff]
  rintro rfl
  have hhash : '#' ∈ (schemaLocation name).toList := by
    show '#' ∈ ("#/components/schemas/" ++ name).toList
    rw [String.toList_append]
    exact List.mem_append_left _ (by simp)
  exact absurd (h.subset hhash) (by simp)

/-- The reference that is reported in a schema stands in its tree, and its chain does not end. -/
theorem exists_mention_of_reported {d : Diagnostic}
    (hd : d ∈ (declaration lib modifiers name schema).2) (hcode : d.code ∈ referenceCodes) :
    ∃ m ∈ mentionsIn name schema, d.location = m.location ∧ ¬ m.Resolves lib := by
  rcases hmap : Mapping.map lib { markModifiers := modifiers } (schemaLocation name) schema
    with error | mapped
  · obtain ⟨m, hm, hfailure⟩ := Mapping.exists_mention_of_map_error hmap
    refine ⟨m, hm, ?_, fun hresolves => ?_⟩
    · have hplace := isEmpty_of_prefix (Mapping.prefix_of_mem_mentions schema _ hm)
      have hlocation := Mapping.Mention.location_of_failure? hfailure
      rw [Mapping.Mention.place, hplace, if_neg Bool.false_ne_true] at hlocation
      rw [declaration_of_map_eq_error hmap, List.mem_singleton] at hd
      rw [hd, Analysis.resolutionDiagnostic, hlocation]
      dsimp only
      rw [hplace, if_neg Bool.false_ne_true]
    · rw [Mapping.Mention.failure?_eq_none_iff.mpr hresolves] at hfailure
      cases hfailure
  · rw [declaration_of_map_eq_ok hmap] at hd
    exact absurd hcode (code_notMem_referenceCodes hmap hd)

/-- The type library declares every schema by itself.  A schema stands exactly if the chain of every
reference in its tree ends; every reference that is reported stands in the tree of a schema, at the
location that is reported, and its chain does not end. -/
theorem declarations_stand_iff (lib : Library) (modifiers : Bool) :
    (declarations lib modifiers).1 = (if modifiers then [.viewUtilities] else []) ++
      lib.schemas.map (fun entry => (declaration lib modifiers entry.1 entry.2).1) ∧
    (declarations lib modifiers).2 =
      lib.schemas.flatMap (fun entry => (declaration lib modifiers entry.1 entry.2).2) ∧
    (∀ name schema, (name, schema) ∈ lib.schemas →
      (Stands lib modifiers name schema ↔
        ∀ m ∈ mentionsIn name schema, ∃ s, lib.Ends (.reference m.target false) s)) ∧
    (∀ d ∈ (declarations lib modifiers).2, d.code ∈ referenceCodes →
      ∃ name schema, (name, schema) ∈ lib.schemas ∧ ∃ m ∈ mentionsIn name schema,
        d.location = m.location ∧ ¬ ∃ s, lib.Ends (.reference m.target false) s) := by
  have hnotes : (declarations lib modifiers).2 =
      lib.schemas.flatMap (fun entry => (declaration lib modifiers entry.1 entry.2).2) := by
    rw [declarations]
    exact List.flatMap_map _ _ _
  refine ⟨declarations_fst, hnotes, fun name schema _ => stands_iff, fun d hd hcode => ?_⟩
  rw [hnotes] at hd
  obtain ⟨⟨name, schema⟩, hmem, hd⟩ := List.mem_flatMap.mp hd
  exact ⟨name, schema, hmem, exists_mention_of_reported hd hcode⟩

/-! ## A broken alias -/

/-- An array of labels, a label that refers to nothing, and a tree. -/
def garden : Library :=
  ⟨[("Label", .reference "Missing" false), ("Labels", .array (.reference "Label" false) false),
    ("Tree", .array (.reference "Tree" false) false)]⟩

theorem not_ends_label (s : Schema) : ¬ garden.Ends (.reference "Label" false) s := by
  intro hends
  have hfailure : Outcome.failure? (garden.resolve (.reference "Label" false) none) =
      some (.unknown "Missing" none) := by decide +kernel
  rw [Library.resolve_eq_ok_iff.mpr hends] at hfailure
  cases hfailure

/-- The tree stands although it refers to itself, and what is reported is reported in the labels
too. -/
theorem declarations_stand_iff_garden :
    Stands garden false "Tree" (.array (.reference "Tree" false) false) ∧
      ∃ d ∈ (declarations garden false).2, d.code ∈ referenceCodes ∧
        d.location = "#/components/schemas/Labels/items" ∧
        ∃ name schema, (name, schema) ∈ garden.schemas ∧ ∃ m ∈ mentionsIn name schema,
          d.location = m.location ∧ ¬ ∃ s, garden.Ends (.reference m.target false) s := by
  obtain ⟨-, -, hstands, hreported⟩ := declarations_stand_iff garden false
  constructor
  · refine (hstands "Tree" _ (by simp [garden])).mpr fun m hm => ?_
    have htarget : m.target = "Tree" := by
      rw [mentionsIn, mentions, mentions, List.mem_singleton] at hm
      rw [hm]
    rw [htarget]
    exact ⟨_, .single ⟨"Tree", false, rfl, rfl⟩, rfl⟩
  · have hsecond : ∃ d ∈ (declarations garden false).2, d.code ∈ referenceCodes ∧
        d.location = "#/components/schemas/Labels/items" := by decide +kernel
    obtain ⟨d, hd, hcode, hlocation⟩ := hsecond
    exact ⟨d, hd, hcode, hlocation, hreported d hd hcode⟩

/-- A schema whose references all name schemas of the library need not stand, even if it lies on no
circle: the labels refer to the label, which is there but refers to nothing. -/
theorem not_stands_behind_alias :
    ¬ ∀ (lib : Library) (modifiers : Bool) (name : String) (schema : Schema),
      (name, schema) ∈ lib.schemas →
      (∀ m ∈ mentionsIn name schema, m.target ∈ lib.schemas.names) →
      ¬ Relation.TransGen lib.Leads schema schema →
      Stands lib modifiers name schema := by
  intro hclaim
  have hmention : mentionsIn "Labels" (.array (.reference "Label" false) false) =
      [⟨"Label", schemaLocation "Labels" ++ "/items"⟩] := by
    rw [mentionsIn, mentions, mentions]
  have hstands : Stands garden false "Labels" (.array (.reference "Label" false) false) := by
    refine hclaim garden false "Labels" _ (by simp [garden]) (fun m hm => ?_) ?_
    · rw [hmention, List.mem_singleton] at hm
      rw [hm]
      decide
    · intro hcircle
      obtain ⟨b, hb, -⟩ := Relation.TransGen.head'_iff.mp hcircle
      exact Library.not_leads_of_not_isReference rfl hb
  rw [stands_iff, hmention] at hstands
  obtain ⟨s, hends⟩ := hstands _ List.mem_cons_self
  exact not_ends_label s hends

end TypedClient.TypeLibrary

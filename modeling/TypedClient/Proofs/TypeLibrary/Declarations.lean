import TypedClient.TypeLibrary
import TypedClient.Proofs.Library.TypeNames
import TypedClient.Proofs.Mapping.Parts

/-!
# The declarations of the type library

Every schema is declared under its own type name, whatever becomes of its references, so the names
that the type library declares are the type names of the schemas in the order of the document.

* `Declaration.declaredName?`, `Declaration.types`: what a declaration declares and mentions.
* `TypeLibrary.names_declarations`: the names that the library declares.
* `TypeLibrary.head?_declarations`: when the library starts with the projections.
* `TypeLibrary.emits_of_occurs`: the parts of the types of the library.
-/

namespace TypedClient

/-- The name of a declaration that declares a type. -/
def Declaration.declaredName? : Declaration → Option String
  | .enumeration name _ _ => some name
  | .alias name _ _ => some name
  | _ => none

/-- The types that a method mentions: of its parameters, its data and its response. -/
def Callable.types (c : Callable) : List TypeExpr :=
  c.parametersType.toList ++ c.dataType.toList ++ [c.returnType]

/-- The types that a declaration mentions. -/
def Declaration.types : Declaration → List TypeExpr
  | .alias _ type _ => [type]
  | .callable c => c.types
  | _ => []

/-- The type expression stands in one of the declarations, at any depth. -/
def Occurs (t : TypeExpr) (declared : List Declaration) : Prop :=
  ∃ d ∈ declared, ∃ type ∈ d.types, TypeExpr.Within t type

namespace TypeLibrary

variable {lib : Library} {modifiers : Bool}

/-- The names that a list of declarations declares. -/
def names (declared : List Declaration) : List String :=
  declared.filterMap Declaration.declaredName?

theorem declaredName?_enumeration (name : String) (values : List Value) (source : String) :
    (enumeration name values source).declaredName? = some name := by
  rw [enumeration]
  split <;> rfl

/-- The declaration of a schema is an enumeration, or the alias of what its type maps to. -/
theorem declaration_cases (name : String) (schema : Schema) :
    (∃ values, (declaration lib modifiers name schema).1 =
      enumeration (lib.typeName name) values ("#/components/schemas/" ++ name)) ∨
    ∃ type, (declaration lib modifiers name schema).1 =
        .alias (lib.typeName name) type ("#/components/schemas/" ++ name) ∧
      (type = .any ∨ ∃ location mapped, type = mapped.result ∧
        Mapping.map lib { markModifiers := modifiers } location schema = .ok mapped) := by
  rw [declaration.eq_def]
  dsimp only
  split
  · exact Or.inl ⟨_, rfl⟩
  · rcases hmap : Mapping.map lib { markModifiers := modifiers }
      ("#/components/schemas/" ++ name) schema with error | mapped
    · exact Or.inr ⟨_, rfl, Or.inl rfl⟩
    · exact Or.inr ⟨_, rfl, Or.inr ⟨_, mapped, rfl, hmap⟩⟩

/-- A schema is declared under its own type name. -/
theorem declaredName?_declaration (name : String) (schema : Schema) :
    (declaration lib modifiers name schema).1.declaredName? = some (lib.typeName name) := by
  rcases declaration_cases name schema with ⟨values, h⟩ | ⟨type, h, -⟩
  · rw [h]
    exact declaredName?_enumeration _ _ _
  · rw [h]
    rfl

theorem declarations_fst : (declarations lib modifiers).1 =
    (if modifiers then [.viewUtilities] else []) ++
      lib.schemas.map fun entry => (declaration lib modifiers entry.1 entry.2).1 := by
  rw [declarations]
  simp only [List.map_map]
  rfl

/-- The names that the type library declares are the type names of the schemas, in order. -/
theorem names_declarations :
    names (declarations lib modifiers).1 = lib.schemas.names.map lib.typeName := by
  have hhead : names (if modifiers then [Declaration.viewUtilities] else []) = [] := by
    cases modifiers <;> rfl
  have hrest : names (lib.schemas.map fun entry => (declaration lib modifiers entry.1 entry.2).1) =
      lib.schemas.names.map lib.typeName := by
    rw [names, List.filterMap_map, Named.names, List.map_map, ← List.filterMap_eq_map]
    refine List.filterMap_congr fun entry _ => ?_
    exact declaredName?_declaration entry.1 entry.2
  rw [declarations_fst, names, List.filterMap_append]
  exact (congrArg₂ (· ++ ·) hhead hrest).trans (List.nil_append _)

/-- The type library starts with the projections exactly if types are seen through views. -/
theorem head?_declarations :
    (declarations lib modifiers).1.head? = some .viewUtilities ↔ modifiers = true := by
  rw [declarations_fst]
  cases modifiers with
  | true => exact ⟨fun _ => rfl, fun _ => rfl⟩
  | false =>
    constructor
    · intro h
      rw [List.head?_append, List.head?_map] at h
      cases hhead : lib.schemas.head? with
      | none =>
        rw [hhead] at h
        cases h
      | some entry =>
        rw [hhead] at h
        have hname : (declaration lib false entry.1 entry.2).1.declaredName? =
            some (lib.typeName entry.1) := declaredName?_declaration entry.1 entry.2
        have hfirst := Option.some_inj.mp h
        dsimp only at hfirst
        rw [hfirst] at hname
        cases hname
    · intro h
      cases h

/-- Every part of a type of the library is one that mapping emits. -/
theorem emits_of_occurs {t : TypeExpr} (h : Occurs t (declarations lib modifiers).1) :
    ∃ references : NameSet, Mapping.Emits lib { markModifiers := modifiers } references t ∧
      ∀ name ∈ references, ∃ target ∈ lib.schemas.names, name = lib.typeName target := by
  obtain ⟨d, hd, type, htype, ht⟩ := h
  rw [declarations_fst] at hd
  rcases List.mem_append.mp hd with hd | hd
  · split at hd
    · rw [List.mem_singleton] at hd
      subst hd
      exact absurd htype List.not_mem_nil
    · exact absurd hd List.not_mem_nil
  · obtain ⟨⟨name, schema⟩, -, rfl⟩ := List.mem_map.mp hd
    dsimp only at htype
    rcases declaration_cases name schema with
      ⟨values, h⟩ | ⟨body, h, hany | ⟨location, mapped, hresult, hmap⟩⟩
    · rw [h, enumeration] at htype
      split at htype
      · exact absurd htype List.not_mem_nil
      · rw [Declaration.types, List.mem_singleton] at htype
        subst htype
        obtain rfl := TypeExpr.within_literals_iff.mp ht
        exact ⟨[], trivial, fun _ hmem => absurd hmem List.not_mem_nil⟩
    · rw [h, Declaration.types, List.mem_singleton, hany] at htype
      subst htype
      have hsound : Mapping.Sound lib { markModifiers := modifiers } .any [] := .any
      exact ⟨[], hsound.emits t ht, hsound.known⟩
    · rw [h, Declaration.types, List.mem_singleton, hresult] at htype
      subst htype
      have hsound := Mapping.sound_map schema hmap
      exact ⟨mapped.references, hsound.emits t ht, hsound.known⟩

end TypeLibrary

end TypedClient

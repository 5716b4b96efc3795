import TypedClient.Proofs.Library.TypeNames
import TypedClient.Proofs.TypeLibrary.References

/-!
# Schemas added at the end of a library

A document that grows at its end keeps what was made of it before.  Type names are assigned from the
front, so the schemas that were there keep theirs, whatever the new ones are called.  A chain of
references that ends goes through schemas that were there, and ends in the same schema.  Mapping
asks the library for nothing else, so where it succeeds it gives the same; only a reference that led
nowhere can come to lead somewhere.

* `Library.append`: a library with further schemas behind its own.
* `Library.typeName_append`, `Library.Ends.append`: names and chains stay.
* `Mapping.map_append`: what a schema maps to stays.
* `TypeLibrary.IsFallback`: the declarations that stand for a schema which cannot be mapped.
* `append_keeps`: every other declaration stays, in its place.
-/

namespace TypedClient

namespace Library

variable {lib : Library} {more : Named Schema}

/-- The library with further schemas behind its own. -/
def append (lib : Library) (more : Named Schema) : Library :=
  ⟨lib.schemas ++ more⟩

/-! ## Type names -/

/-- The type names of the old schemas stand before those of the new ones, unchanged. -/
theorem exists_typeNames_append (lib : Library) (more : Named Schema) :
    ∃ others, (lib.append more).typeNames = lib.typeNames ++ others := by
  obtain ⟨assigned, hassigned⟩ := Identifier.exists_assign_append libraryNames
    (lib.schemas.names.map Identifier.sanitize) (more.names.map Identifier.sanitize)
  have hnames : (lib.append more).schemas.names = lib.schemas.names ++ more.names :=
    List.map_append
  refine ⟨more.names.zip assigned, ?_⟩
  rw [typeNames, hnames, List.map_append, hassigned, List.zip_append lib.length_names, typeNames]

/-- A schema keeps its type name. -/
theorem typeName_append {name : String} (h : name ∈ lib.schemas.names) :
    (lib.append more).typeName name = lib.typeName name := by
  obtain ⟨others, hothers⟩ := exists_typeNames_append lib more
  rw [typeName, hothers, Named.get?_append (get?_typeNames h), Option.getD_some]

/-! ## Chains of references -/

theorem Leads.append {a b : Schema} (h : lib.Leads a b) : (lib.append more).Leads a b := by
  obtain ⟨target, nullable, ha, hget⟩ := h
  exact ⟨target, nullable, ha, Named.get?_append hget more⟩

/-- A chain that ends goes on to end in the same schema. -/
theorem Ends.append {a s : Schema} (h : lib.Ends a s) : (lib.append more).Ends a s :=
  ⟨h.1.lift id fun _ _ hleads => Leads.append hleads, h.2⟩

end Library

/-! ## Mapping -/

namespace Mapping

variable {lib : Library} {more : Named Schema}

/-- A reference that resolves is answered alike. -/
theorem Mention.Resolves.alike {m : Mention} (h : m.Resolves lib) :
    m.Alike lib (lib.append more) := by
  obtain ⟨s, hends⟩ := h
  have hold : lib.resolve (.reference m.target false) m.place = .ok s :=
    Library.resolve_eq_ok_iff.mpr hends
  have hnew : (lib.append more).resolve (.reference m.target false) m.place = .ok s :=
    Library.resolve_eq_ok_iff.mpr hends.append
  have hmem : m.target ∈ lib.schemas.names := Library.mem_names_of_resolve hold
  exact ⟨hold.trans hnew.symm, (Library.typeName_append hmem).symm⟩

/-- What a schema maps to does not change. -/
theorem map_append {ctx : Context} {location : String} {schema : Schema}
    {mapped : Mapped TypeExpr} (h : map lib ctx location schema = .ok mapped) :
    map (lib.append more) ctx location schema = .ok mapped := by
  have hresolves : ∀ m ∈ mentions ctx.view location schema, m.Resolves lib :=
    map_ok_iff.mp ⟨mapped, h⟩
  have halike : map lib ctx location schema = map (lib.append more) ctx location schema :=
    map_congr schema location fun m hm => (hresolves m hm).alike
  rw [← halike, h]

end Mapping

/-! ## Declarations -/

namespace TypeLibrary

open Document (schemaLocation)

variable {lib : Library} {modifiers : Bool} {name : String} {schema : Schema}

/-- The declaration stands for a schema of the library that cannot be mapped. -/
def IsFallback (lib : Library) (modifiers : Bool) (d : Declaration) : Prop :=
  ∃ name schema error, (name, schema) ∈ lib.schemas ∧
    Mapping.map lib { markModifiers := modifiers } (schemaLocation name) schema = .error error ∧
    d = .alias (lib.typeName name) .any (schemaLocation name)

/-- A schema that can be mapped is declared as before, with the same notes. -/
theorem declaration_append {more : Named Schema} {mapped : Mapping.Mapped TypeExpr}
    (hname : name ∈ lib.schemas.names)
    (h : Mapping.map lib { markModifiers := modifiers } (schemaLocation name) schema =
      .ok mapped) :
    declaration (lib.append more) modifiers name schema =
      declaration lib modifiers name schema := by
  have hdeclared : declared (lib.append more) name mapped.result schema =
      declared lib name mapped.result schema := by
    rw [declared.eq_def, declared.eq_def, Library.typeName_append hname]
  rw [declaration_of_map_eq_ok h, declaration_of_map_eq_ok (Mapping.map_append h), hdeclared]

/-- A schema whose declaration is no fallback is declared as before. -/
theorem declaration_append_of_not_isFallback {more : Named Schema}
    (hmem : (name, schema) ∈ lib.schemas)
    (h : ¬ IsFallback lib modifiers (declaration lib modifiers name schema).1) :
    declaration (lib.append more) modifiers name schema =
      declaration lib modifiers name schema := by
  rcases hmap : Mapping.map lib { markModifiers := modifiers } (schemaLocation name) schema
    with error | mapped
  · have hfallback : IsFallback lib modifiers (declaration lib modifiers name schema).1 :=
      ⟨name, schema, error, hmem, hmap, by rw [declaration_of_map_eq_error hmap]⟩
    exact absurd hfallback h
  · exact declaration_append (Named.mem_names_of_mem hmem) hmap

/-- The schemas that were there are declared first, in the same places. -/
theorem getElem?_declarations_append (lib : Library) (more : Named Schema) (modifiers : Bool)
    {i : Nat} (hi : i < (declarations lib modifiers).1.length) :
    (declarations (lib.append more) modifiers).1[i]? =
      ((if modifiers then [.viewUtilities] else []) ++
        lib.schemas.map fun entry =>
          (declaration (lib.append more) modifiers entry.1 entry.2).1)[i]? := by
  have hschemas : (lib.append more).schemas = lib.schemas ++ more := rfl
  rw [declarations_fst, List.length_append, List.length_map] at hi
  rw [declarations_fst, hschemas, List.map_append, ← List.append_assoc]
  refine List.getElem?_append_left ?_
  rw [List.length_append, List.length_map]
  exact hi

/-- A declaration that is no fallback stays in its place. -/
theorem getElem?_declarations_append_of_not_isFallback {more : Named Schema} {i : Nat}
    {d : Declaration} (hd : (declarations lib modifiers).1[i]? = some d)
    (hkeep : ¬ IsFallback lib modifiers d) :
    (declarations (lib.append more) modifiers).1[i]? = some d := by
  obtain ⟨hi, -⟩ := List.getElem?_eq_some_iff.mp hd
  rw [getElem?_declarations_append lib more modifiers hi]
  rw [declarations_fst] at hd
  generalize (if modifiers then [Declaration.viewUtilities] else []) = front at hd ⊢
  rw [List.getElem?_append] at hd ⊢
  by_cases hfront : i < front.length
  · -- the projections stand in front, whatever the schemas are
    rw [if_pos hfront] at hd ⊢
    exact hd
  · rw [if_neg hfront, List.getElem?_map, Option.map_eq_some_iff] at hd
    obtain ⟨⟨name, schema⟩, hentry, hdeclared⟩ := hd
    have hmem : (name, schema) ∈ lib.schemas := List.mem_of_getElem? hentry
    have hsame : declaration (lib.append more) modifiers name schema =
        declaration lib modifiers name schema :=
      declaration_append_of_not_isFallback hmem (by rw [hdeclared]; exact hkeep)
    rw [if_neg hfront, List.getElem?_map, hentry, Option.map_some, hsame, hdeclared]

/-- Schemas added at the end of a library disturb nothing that was made of it.  Every schema keeps
its type name; what maps to a type, in any context and at any location, maps to the same type with
the same references and notes; and every declaration that is no fallback stays in its place. -/
theorem append_keeps (lib : Library) (more : Named Schema) :
    (∀ name ∈ lib.schemas.names, (lib.append more).typeName name = lib.typeName name) ∧
    (∀ (ctx : Mapping.Context) (location : String) (schema : Schema)
        (mapped : Mapping.Mapped TypeExpr),
      Mapping.map lib ctx location schema = .ok mapped →
        Mapping.map (lib.append more) ctx location schema = .ok mapped) ∧
    ∀ (modifiers : Bool) (i : Nat) (d : Declaration),
      (declarations lib modifiers).1[i]? = some d → ¬ IsFallback lib modifiers d →
        (declarations (lib.append more) modifiers).1[i]? = some d :=
  ⟨fun _ hname => Library.typeName_append hname, fun _ _ _ _ h => Mapping.map_append h,
    fun _ _ _ hd hkeep => getElem?_declarations_append_of_not_isFallback hd hkeep⟩

/-! ## A name that a later schema asks for -/

/-- The schema of a list of lists. -/
def nested : Schema := .array (.reference "pet-list" false) false

/-- A list of lists, and a label that refers to nothing. -/
def shelf : Library :=
  ⟨[("pet-list", nested), ("Label", .reference "Missing" false)]⟩

/-- A schema that is named as the list is declared, and the one that the label lacks. -/
def delivery : Named Schema :=
  [("pet_list", .untyped "" false), ("Missing", .primitive .string none [] false)]

theorem map_nested (ctx : Mapping.Context) (location : String) :
    Mapping.map shelf ctx location nested =
      .ok ⟨.array (.named "pet_list" ctx.qualifier (ctx.viewOf nested) false), ["pet_list"],
        []⟩ := by
  have hends : shelf.Ends (.reference "pet-list" false) nested :=
    ⟨.single ⟨"pet-list", false, rfl, rfl⟩, rfl⟩
  have htypeName : shelf.typeName "pet-list" = "pet_list" := by decide +kernel
  rw [nested, Mapping.map, Mapping.map, Mapping.mapReference, Library.resolve_eq_ok_iff.mpr hends,
    htypeName]
  rfl

/-- The list is still declared under its name and as its type, although a schema comes that has
this name from the start. -/
theorem append_keeps_shelf :
    (shelf.append delivery).typeName "pet-list" = "pet_list" ∧
      Mapping.map (shelf.append delivery) {} "" nested =
        .ok ⟨.array (.named "pet_list" "" none false), ["pet_list"], []⟩ ∧
      (declarations (shelf.append delivery) true).1[1]? =
        some (.alias "pet_list" (.array (.named "pet_list" "" none false))
          (schemaLocation "pet-list")) := by
  obtain ⟨hnames, hmaps, hdeclarations⟩ := append_keeps shelf delivery
  have htypeName : shelf.typeName "pet-list" = "pet_list" := by decide +kernel
  refine ⟨(hnames "pet-list" (by decide)).trans htypeName, hmaps _ _ _ _ (map_nested _ _),
    hdeclarations true 1 _ ?_ ?_⟩
  · have hdeclared : declaration shelf true "pet-list" nested = _ :=
      declaration_of_map_eq_ok (map_nested _ _)
    show some (declaration shelf true "pet-list" nested).1 = _
    rw [hdeclared]
    show some (Declaration.alias (shelf.typeName "pet-list") _ _) = _
    rw [htypeName]
    rfl
  · rintro ⟨name, schema, error, -, -, hany⟩
    have hbody := (Declaration.alias.inj hany).2.1
    cases hbody

end TypeLibrary

end TypedClient

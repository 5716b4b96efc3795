import TypedClient.Proofs.TypeLibrary.References

/-!
# Null in the type library

A schema of values without parts is mapped to a type that keeps its null, and its declaration is the
alias of that type, unless the schema has permitted values.  Those make an enumeration of their own,
which is written from the values alone: null is lost with the name, although the same schema without
a name keeps it.

* `TypeExpr.AdmitsNull`: null is a value of a type, named types being what they are declared as.
* `Schema.IsNullableLeaf`: a schema of values without parts that may be null.
* `admitsNull_declaration_iff`: the declaration of such a schema keeps null exactly if it has no
  permitted values.
* `admitsNull_iff_of_isNullableLeaf`: the same for the schema where it stands, under its name, and
  where it is referred to.
* `not_admitsNull_level`: a named enumeration of integers that loses its null.
-/

namespace TypedClient

/-- Null is a value of the type, when the named types are declared as given.  Nothing is said of the
projections of a named type. -/
inductive TypeExpr.AdmitsNull (declared : List Declaration) : TypeExpr → Prop
  | any : AdmitsNull declared .any
  | unknown : AdmitsNull declared (.primitive .unknown)
  | nullable (inner : TypeExpr) : AdmitsNull declared (.nullable inner)
  | literals {values : List Value} (h : .null ∈ values) : AdmitsNull declared (.literals values)
  | sum {members : List TypeExpr} {m : TypeExpr} (hm : m ∈ members)
      (h : AdmitsNull declared m) : AdmitsNull declared (.sum members)
  | product {members : List TypeExpr} (h : ∀ m ∈ members, AdmitsNull declared m) :
      AdmitsNull declared (.product members)
  | named {name qualifier source : String} {type : TypeExpr}
      (hd : .alias name type source ∈ declared) (h : AdmitsNull declared type) :
      AdmitsNull declared (.named name qualifier none false)

/-- Null is a value of the type that is declared; the members of an enumeration are no nulls. -/
def Declaration.AdmitsNull (declared : List Declaration) : Declaration → Prop
  | .alias _ type _ => type.AdmitsNull declared
  | _ => False

/-- The schema describes values without parts, and null. -/
inductive Schema.IsNullableLeaf : Schema → Prop
  | primitive (kind : PrimitiveKind) (format : Option String) (permitted : List Value) :
      IsNullableLeaf (.primitive kind format permitted true)
  | untyped (reason : String) : IsNullableLeaf (.untyped reason true)

/-- The permitted values of a schema, none if all values of its type are permitted. -/
def Schema.permitted : Schema → List Value
  | .primitive _ _ permitted _ => permitted
  | _ => []

namespace TypeLibrary

variable {lib : Library} {modifiers : Bool} {name : String} {schema : Schema}

/-! ## Types -/

theorem admitsNull_literals_iff {declared : List Declaration} {values : List Value} :
    (TypeExpr.literals values).AdmitsNull declared ↔ .null ∈ values := by
  constructor
  · intro h
    cases h with
    | literals hmem => exact hmem
  · exact .literals

theorem admitsNull_named_iff {declared : List Declaration} {name qualifier : String} :
    (TypeExpr.named name qualifier none false).AdmitsNull declared ↔
      ∃ d ∈ declared, d.declaredName? = some name ∧ d.AdmitsNull declared := by
  constructor
  · intro h
    cases h with
    | named hd h => exact ⟨_, hd, rfl, h⟩
  · rintro ⟨d, hd, hname, h⟩
    cases d with
    | «alias» n type source =>
      obtain rfl : n = name := Option.some_inj.mp hname
      exact .named hd h
    | _ => cases h

/-- A schema without parts that may be null is mapped to a type with null, wherever it stands. -/
theorem exists_nullable_of_map (h : schema.IsNullableLeaf) (lib : Library)
    (ctx : Mapping.Context) (location : String) :
    ∃ mapped inner, Mapping.map lib ctx location schema = .ok mapped ∧
      mapped.result = .nullable inner := by
  cases h with
  | primitive kind format permitted => exact ⟨_, _, by rw [Mapping.map], rfl⟩
  | untyped reason => exact ⟨_, _, by rw [Mapping.map], rfl⟩

/-! ## Declarations -/

/-- Values with null among them are not all texts. -/
theorem texts?_eq_none_of_null {values : List Value} (h : .null ∈ values) :
    texts? values = none := by
  induction values with
  | nil => exact absurd h List.not_mem_nil
  | cons v rest ih =>
    rcases List.mem_cons.mp h with rfl | hrest
    · rfl
    · cases v with
      | text s =>
        rw [texts?, ih hrest]
        rfl
      | _ => rfl

/-- An enumeration admits null only if null is one of its values. -/
theorem admitsNull_enumeration_iff {declared : List Declaration} {values : List Value}
    {source : String} :
    (enumeration name values source).AdmitsNull declared ↔ .null ∈ values := by
  rw [enumeration]
  cases htexts : texts? values with
  | some texts =>
    refine iff_of_false id fun hnull => ?_
    rw [texts?_eq_none_of_null hnull] at htexts
    cases htexts
  | none => exact admitsNull_literals_iff

/-- The declaration of a schema without parts that may be null admits null exactly if all values of
the type are permitted, or null is among the permitted ones. -/
theorem admitsNull_declaration_iff (h : schema.IsNullableLeaf) {declared : List Declaration} :
    (declaration lib modifiers name schema).1.AdmitsNull declared ↔
      schema.permitted = [] ∨ .null ∈ schema.permitted := by
  obtain ⟨mapped, inner, hmap, hresult⟩ :=
    exists_nullable_of_map h lib { markModifiers := modifiers } (Document.schemaLocation name)
  have halias : (Declaration.alias (lib.typeName name) mapped.result
      (Document.schemaLocation name)).AdmitsNull declared := by
    rw [hresult]
    exact .nullable inner
  rw [declaration_of_map_eq_ok hmap]
  cases h with
  | primitive kind format permitted =>
    cases permitted with
    | nil => exact iff_of_true halias (Or.inl rfl)
    | cons first more =>
      refine admitsNull_enumeration_iff.trans ⟨Or.inr, fun h => h.resolve_left ?_⟩
      exact List.cons_ne_nil first more
  | untyped reason => exact iff_of_true halias (Or.inl rfl)

/-- A schema is declared once under its type name. -/
theorem eq_declaration_of_declaredName? (hlib : lib.schemas.names.Nodup)
    (hmem : (name, schema) ∈ lib.schemas) {d : Declaration}
    (hd : d ∈ (declarations lib modifiers).1)
    (hname : d.declaredName? = some (lib.typeName name)) :
    d = (declaration lib modifiers name schema).1 := by
  rw [declarations_fst] at hd
  rcases List.mem_append.mp hd with hd | hd
  · split at hd
    · rw [List.mem_singleton.mp hd] at hname
      cases hname
    · exact absurd hd List.not_mem_nil
  · obtain ⟨⟨other, schema'⟩, hmem', rfl⟩ := List.mem_map.mp hd
    have hother := (declaredName?_declaration other schema').symm.trans hname
    obtain rfl : other = name := Library.typeName_injOn (Named.mem_names_of_mem hmem')
      (Named.mem_names_of_mem hmem) (Option.some_inj.mp hother)
    have hget := (Named.get?_eq_some_iff hlib).mpr hmem
    rw [(Named.get?_eq_some_iff hlib).mpr hmem'] at hget
    rw [Option.some_inj.mp hget]

theorem declaration_mem (hmem : (name, schema) ∈ lib.schemas) :
    (declaration lib modifiers name schema).1 ∈ (declarations lib modifiers).1 := by
  rw [declarations_fst]
  exact List.mem_append_right _ (List.mem_map_of_mem (f := fun entry =>
    (declaration lib modifiers entry.1 entry.2).1) hmem)

/-! ## References -/

/-- A reference to a schema that is no reference itself is mapped to the schema's type name. -/
theorem map_reference_eq_ok (hlib : lib.schemas.names.Nodup) (hmem : (name, schema) ∈ lib.schemas)
    (hschema : schema.isReference = false) (ctx : Mapping.Context) (location : String)
    (nullable : Bool) :
    Mapping.map lib ctx location (.reference name nullable) =
      .ok ⟨.named (lib.typeName name) ctx.qualifier (ctx.viewOf schema) false,
        [lib.typeName name], []⟩ := by
  have hget := (Named.get?_eq_some_iff hlib).mpr hmem
  have hends : lib.Ends (.reference name nullable) schema :=
    ⟨.single ⟨name, nullable, rfl, hget⟩, hschema⟩
  rw [Mapping.map, Mapping.mapReference, Library.resolve_eq_ok_iff.mpr hends]
  rfl

/-- Named schemas of values without parts that may be null.  Where it stands, such a schema is
mapped to a type with null.  Its declaration admits null exactly if the schema has no permitted
values, or null among them, and so does every reference to it that is seen through no projection. -/
theorem admitsNull_iff_of_isNullableLeaf (lib : Library) (modifiers : Bool)
    (hlib : lib.schemas.names.Nodup) {name : String} {schema : Schema}
    (hmem : (name, schema) ∈ lib.schemas) (hleaf : schema.IsNullableLeaf) :
    (∀ ctx location, ∃ mapped, Mapping.map lib ctx location schema = .ok mapped ∧
      mapped.result.AdmitsNull (declarations lib modifiers).1) ∧
    (∃ d ∈ (declarations lib modifiers).1, d.declaredName? = some (lib.typeName name) ∧
      (d.AdmitsNull (declarations lib modifiers).1 ↔
        schema.permitted = [] ∨ .null ∈ schema.permitted)) ∧
    ∀ (ctx : Mapping.Context) location nullable, ctx.viewOf schema = none →
      ∃ mapped, Mapping.map lib ctx location (.reference name nullable) = .ok mapped ∧
        (mapped.result.AdmitsNull (declarations lib modifiers).1 ↔
          schema.permitted = [] ∨ .null ∈ schema.permitted) := by
  have hdeclared : (declaration lib modifiers name schema).1 ∈ (declarations lib modifiers).1 :=
    declaration_mem hmem
  have hname : (declaration lib modifiers name schema).1.declaredName? = some (lib.typeName name) :=
    declaredName?_declaration name schema
  have hiff : (declaration lib modifiers name schema).1.AdmitsNull (declarations lib modifiers).1 ↔
      schema.permitted = [] ∨ .null ∈ schema.permitted := admitsNull_declaration_iff hleaf
  refine ⟨fun ctx location => ?_, ⟨_, hdeclared, hname, hiff⟩,
    fun ctx location nullable hview => ?_⟩
  · obtain ⟨mapped, inner, hmap, hresult⟩ := exists_nullable_of_map hleaf lib ctx location
    exact ⟨mapped, hmap, hresult ▸ .nullable inner⟩
  · have hschema : schema.isReference = false := by
      cases hleaf <;> rfl
    refine ⟨_, map_reference_eq_ok hlib hmem hschema ctx location nullable, ?_⟩
    rw [hview, admitsNull_named_iff, ← hiff]
    constructor
    · rintro ⟨d, hd, hdname, h⟩
      rw [← eq_declaration_of_declaredName? hlib hmem hd hdname]
      exact h
    · exact fun h => ⟨_, hdeclared, hname, h⟩

/-- A level of two permitted integers and a label, both of which may be null. -/
def gauge : Library :=
  ⟨[("Level", .primitive .integer none [.int 1, .int 2] true),
    ("Label", .primitive .string none [] true)]⟩

/-- A reference to the label admits null. -/
theorem admitsNull_label : gauge.schemas.names.Nodup ∧
    ∃ mapped, Mapping.map gauge { } "" (.reference "Label" false) = .ok mapped ∧
      mapped.result.AdmitsNull (declarations gauge false).1 := by
  have hlib : gauge.schemas.names.Nodup := by decide
  obtain ⟨-, -, hreferred⟩ := admitsNull_iff_of_isNullableLeaf gauge false hlib
    (List.mem_cons_of_mem _ List.mem_cons_self) (.primitive .string none [])
  obtain ⟨mapped, hmap, hiff⟩ := hreferred { } "" false rfl
  exact ⟨hlib, mapped, hmap, hiff.mpr (Or.inl rfl)⟩

/-- A named schema that may be null need not be declared as a type that admits null: the level is
declared as the literals of its permitted values. -/
theorem not_admitsNull_level :
    ¬ ∀ (lib : Library) (modifiers : Bool), lib.schemas.names.Nodup →
      ∀ name schema, (name, schema) ∈ lib.schemas → schema.IsNullableLeaf →
        ∃ d ∈ (declarations lib modifiers).1, d.declaredName? = some (lib.typeName name) ∧
          d.AdmitsNull (declarations lib modifiers).1 := by
  intro hclaim
  have hlib : gauge.schemas.names.Nodup := by decide
  obtain ⟨d, hd, hname, h⟩ := hclaim gauge false hlib "Level" _ List.mem_cons_self
    (.primitive .integer none [.int 1, .int 2])
  rw [eq_declaration_of_declaredName? hlib List.mem_cons_self hd hname] at h
  have hnull := (admitsNull_declaration_iff (.primitive .integer none [.int 1, .int 2])).mp h
  revert hnull
  simp [Schema.permitted]

end TypeLibrary

end TypedClient

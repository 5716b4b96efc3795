import TypedClient.Mapping
import TypedClient.Proofs.Library.Resolution
import TypedClient.Proofs.Outcome
import TypedClient.Proofs.TypeExpr.Parts

/-!
# What mapping emits

Mapping puts a name into a type only where it resolved a reference, and every other expression is
made of the types of the schema's own parts.  So what a type holds can be read off the context and
the library, at every depth.

* `Emits`: the expressions that mapping may put into a type.
* `Context.viewOf_eq_some_iff`: which references are seen through a view.
* `Sound`: a type all of whose parts may have been emitted, with references that name schemas.
* `mapPrimitive_induction`: the forms that the type of a primitive schema may have.
* `sound_map`: what mapping gives is sound.
* `Inherits`, `Inherits.map`: what holds of a mapped type if every form of types hands it on.
* `mem_references_iff`: what mapping refers to are the names of schemas in the type.
-/

namespace TypedClient.Mapping

open TypeExpr (Within)

variable {lib : Library} {ctx : Context}

/-- The expressions that mapping may put into a type: the names of schemas that references resolve
to, qualified as the context says and seen through its view if it wraps views; builtin names without
a view; and marked properties only if the context marks them. -/
def Emits (lib : Library) (ctx : Context) (references : NameSet) : TypeExpr → Prop
  | .named name qualifier view false =>
    name ∈ references ∧ qualifier = ctx.qualifier ∧
      ∃ target nullable place concrete,
        lib.resolve (.reference target nullable) place = .ok concrete ∧
          name = lib.typeName target ∧ view = ctx.viewOf concrete
  | .named _ _ view true => view = none
  | .object fields _ => ∀ f ∈ fields, f.2.isMarked = true → ctx.markModifiers = true
  | _ => True

/-- A reference is seen through the view of the context, if the context wraps views and the
reference leads to no enumeration. -/
theorem Context.viewOf_eq_some_iff {concrete : Schema} {view : View} :
    ctx.viewOf concrete = some view ↔
      ctx.wrapViews = true ∧ ctx.view = some view ∧ concrete.isEnumeration = false := by
  rw [Context.viewOf]
  split
  · rename_i hwraps
    rw [Bool.and_eq_true, Bool.not_eq_true'] at hwraps
    exact ⟨fun h => ⟨hwraps.1, h, hwraps.2⟩, fun h => h.2.1⟩
  · rename_i hplain
    refine ⟨fun h => absurd h (by simp), fun h => absurd ?_ hplain⟩
    rw [Bool.and_eq_true, Bool.not_eq_true']
    exact ⟨h.1, h.2.2⟩

theorem Emits.mono {references more : NameSet} (hsub : references ⊆ more) {t : TypeExpr}
    (h : Emits lib ctx references t) : Emits lib ctx more t := by
  match t, h with
  | .named _ _ _ false, ⟨hname, hrest⟩ => exact ⟨hsub hname, hrest⟩
  | .named _ _ _ true, h => exact h
  | .object _ _, h => exact h
  | .array _, _ => trivial
  | .sum _, _ => trivial
  | .product _, _ => trivial
  | .literals _, _ => trivial
  | .primitive _, _ => trivial
  | .nullable _, _ => trivial

/-- A type with references: every part of the type may have been emitted, and every reference is the
type name of a schema. -/
structure Sound (lib : Library) (ctx : Context) (type : TypeExpr) (references : NameSet) :
    Prop where
  emits : ∀ t, Within t type → Emits lib ctx references t
  known : ∀ name ∈ references, ∃ target ∈ lib.schemas.names, name = lib.typeName target

theorem Sound.any : Sound lib ctx .any [] where
  emits := by
    intro t ht
    obtain rfl := TypeExpr.within_primitive_iff.mp ht
    trivial
  known := fun _ h => absurd h List.not_mem_nil

/-- Adding null keeps a type sound. -/
theorem Sound.orNull {flag : Bool} {type : TypeExpr} {references : NameSet}
    (h : Sound lib ctx type references) : Sound lib ctx (.orNull flag type) references where
  emits := by
    intro t ht
    rcases TypeExpr.within_orNull ht with rfl | ht
    · trivial
    · exact h.emits t ht
  known := h.known

/-- A further reference keeps the parts of a type as they are. -/
theorem Sound.emits_of_subset {type : TypeExpr} {references more : NameSet}
    (h : Sound lib ctx type references) (hsub : references ⊆ more) {t : TypeExpr}
    (ht : Within t type) : Emits lib ctx more t :=
  (h.emits t ht).mono hsub

theorem known_union {references more : NameSet}
    (h₁ : ∀ name ∈ references, ∃ target ∈ lib.schemas.names, name = lib.typeName target)
    (h₂ : ∀ name ∈ more, ∃ target ∈ lib.schemas.names, name = lib.typeName target) :
    ∀ name ∈ NameSet.union references more,
      ∃ target ∈ lib.schemas.names, name = lib.typeName target := by
  intro name hname
  rcases NameSet.mem_union.mp hname with h | h
  · exact h₁ name h
  · exact h₂ name h

theorem subset_union_left {references more : NameSet} :
    references ⊆ NameSet.union references more :=
  fun _ h => NameSet.mem_union.mpr (Or.inl h)

theorem subset_union_right {references more : NameSet} : more ⊆ NameSet.union references more :=
  fun _ h => NameSet.mem_union.mpr (Or.inr h)

/-! ## Schemas without parts -/

theorem sound_mapUntyped (reason : String) (nullable : Bool) (location : String) :
    Sound lib ctx (mapUntyped reason nullable location).result
      (mapUntyped reason nullable location).references :=
  Sound.any.orNull

/-- What holds of the type of days, of primitive types and of the permitted literals, and of each
with null added, holds of the type of a primitive schema. -/
theorem mapPrimitive_induction {P : TypeExpr → Prop} {permitted : List Value}
    (day : P .dateTime) (primitive : ∀ type, P (.primitive type))
    (literals : P (.literals permitted))
    (orNull : ∀ flag type, P type → P (.orNull flag type))
    (kind : PrimitiveKind) (format : Option String) (nullable : Bool) :
    P (mapPrimitive kind format permitted nullable) := by
  have hliterals : ∀ type : PrimitiveType,
      P (if permitted.isEmpty then .primitive type else .literals permitted) := by
    intro type
    split
    · exact primitive type
    · exact literals
  refine orNull nullable _ ?_
  cases kind with
  | boolean => exact hliterals .boolean
  | integer => exact hliterals .integer
  | number => exact hliterals .number
  | string =>
    dsimp only
    split
    · exact day
    · exact hliterals .string

theorem sound_mapPrimitive (kind : PrimitiveKind) (format : Option String)
    (permitted : List Value) (nullable : Bool) :
    Sound lib ctx (mapPrimitive kind format permitted nullable) [] := by
  have halone : ∀ type : TypeExpr, (∀ t, Within t type → t = type) → Emits lib ctx [] type →
      Sound lib ctx type [] := by
    intro type hwithin hemits
    exact ⟨fun t ht => hwithin t ht ▸ hemits, fun _ h => absurd h List.not_mem_nil⟩
  refine mapPrimitive_induction (P := fun type => Sound lib ctx type []) ?_ ?_ ?_ ?_ kind format
    nullable
  · exact halone _ (fun t ht => TypeExpr.within_named_iff.mp ht) rfl
  · exact fun type => halone _ (fun t ht => TypeExpr.within_primitive_iff.mp ht) trivial
  · exact halone _ (fun t ht => TypeExpr.within_literals_iff.mp ht) trivial
  · exact fun flag type h => h.orNull

theorem sound_mapReference {location target : String} {nullable : Bool} {m : Mapped TypeExpr}
    (h : mapReference lib ctx location target nullable = .ok m) :
    Sound lib ctx m.result m.references := by
  rw [mapReference] at h
  obtain ⟨concrete, hresolve, h⟩ := Outcome.bind_eq_ok_iff.mp h
  obtain rfl := Except.ok.inj h
  refine ⟨fun t ht => ?_, fun name hname => ?_⟩
  · obtain rfl := TypeExpr.within_named_iff.mp ht
    exact ⟨List.mem_singleton_self _, rfl, target, nullable, _, concrete, hresolve, rfl, rfl⟩
  · rw [List.mem_singleton] at hname
    exact ⟨target, Library.mem_names_of_resolve hresolve, hname⟩

/-! ## Schemas with parts -/

theorem mapAdditional_unsaid {location : String} :
    mapAdditional lib ctx location .unsaid = .ok (.pure none) := rfl

theorem mapAdditional_permitted {location : String} {b : Bool} :
    mapAdditional lib ctx location (.permitted b) = .ok (.pure none) := rfl

/-- Sound members combine to a sound type. -/
theorem sound_combine {mode : Composition} {location : String} {members : Mapped (List TypeExpr)}
    (hparts : ∀ type ∈ members.result, ∀ t, Within t type → Emits lib ctx members.references t)
    (hknown : ∀ name ∈ members.references,
      ∃ target ∈ lib.schemas.names, name = lib.typeName target) :
    Sound lib ctx (combine mode location members).result
      (combine mode location members).references := by
  obtain ⟨types, references, notes⟩ := members
  match types with
  | [] => exact sound_mapUntyped _ _ _
  | [type] => exact ⟨hparts type List.mem_cons_self, hknown⟩
  | type :: other :: rest =>
    refine ⟨fun t ht => ?_, hknown⟩
    cases mode with
    | all =>
      change Within t (.product (type :: other :: rest)) at ht
      cases ht with
      | refl => trivial
      | product hm ht => exact hparts _ hm t ht
    | one =>
      change Within t (.sum (type :: other :: rest)) at ht
      cases ht with
      | refl => trivial
      | sum hm ht => exact hparts _ hm t ht

mutual

/-- What mapping gives is sound. -/
theorem sound_map : ∀ (schema : Schema) {location : String} {m : Mapped TypeExpr},
    map lib ctx location schema = .ok m → Sound lib ctx m.result m.references
  | .reference target nullable, location, m, h => by
    rw [map] at h
    exact sound_mapReference h
  | .composite mode members _, location, m, h => by
    rw [map] at h
    obtain ⟨mapped, hmembers, h⟩ := Outcome.bind_eq_ok_iff.mp h
    obtain rfl := Except.ok.inj h
    obtain ⟨hparts, hknown⟩ := sound_mapMembers members hmembers
    exact sound_combine hparts hknown
  | .array items _, location, m, h => by
    rw [map] at h
    obtain ⟨mapped, hitems, h⟩ := Outcome.bind_eq_ok_iff.mp h
    obtain rfl := Except.ok.inj h
    have ih := sound_map items hitems
    refine ⟨fun t ht => ?_, ih.known⟩
    cases ht with
    | refl => trivial
    | array ht => exact ih.emits t ht
  | .object properties additional _, location, m, h => by
    rw [map] at h
    obtain ⟨fields, hfields, h⟩ := Outcome.bind_eq_ok_iff.mp h
    obtain ⟨index, hindex, h⟩ := Outcome.bind_eq_ok_iff.mp h
    obtain rfl := Except.ok.inj h
    obtain ⟨hparts, hmarked, hknown⟩ := sound_mapProperties properties hfields
    obtain ⟨hindexParts, hindexKnown⟩ := sound_mapAdditional additional hindex
    refine ⟨fun t ht => ?_, known_union hknown hindexKnown⟩
    change Within t (.object fields.result index.result) at ht
    generalize hresult : index.result = type at ht
    cases ht with
    | refl => exact hmarked
    | field hf ht => exact (hparts _ hf t ht).mono subset_union_left
    | index ht => exact (hindexParts _ hresult t ht).mono subset_union_right
  | .primitive kind format permitted nullable, location, m, h => by
    rw [map] at h
    obtain rfl := Except.ok.inj h
    exact sound_mapPrimitive kind format permitted nullable
  | .untyped reason nullable, location, m, h => by
    rw [map] at h
    obtain rfl := Except.ok.inj h
    exact sound_mapUntyped reason nullable location

/-- The types of the members of a composition. -/
theorem sound_mapMembers : ∀ (schemas : List Schema) {place : String} {position : Nat}
    {m : Mapped (List TypeExpr)}, mapMembers lib ctx place position schemas = .ok m →
    (∀ type ∈ m.result, ∀ t, Within t type → Emits lib ctx m.references t) ∧
      ∀ name ∈ m.references, ∃ target ∈ lib.schemas.names, name = lib.typeName target
  | [], place, position, m, h => by
    rw [mapMembers] at h
    obtain rfl := Except.ok.inj h
    exact ⟨fun _ h => absurd h List.not_mem_nil, fun _ h => absurd h List.not_mem_nil⟩
  | schema :: rest, place, position, m, h => by
    rw [mapMembers] at h
    obtain ⟨first, hfirst, h⟩ := Outcome.bind_eq_ok_iff.mp h
    obtain ⟨others, hothers, h⟩ := Outcome.bind_eq_ok_iff.mp h
    obtain rfl := Except.ok.inj h
    have ih := sound_map schema hfirst
    obtain ⟨hparts, hknown⟩ := sound_mapMembers rest hothers
    refine ⟨fun type htype t ht => ?_, known_union ih.known hknown⟩
    rcases List.mem_cons.mp htype with rfl | htype
    · exact (ih.emits t ht).mono subset_union_left
    · exact (hparts type htype t ht).mono subset_union_right

/-- The properties of an object type. -/
theorem sound_mapProperties : ∀ (properties : List (String × PropertyOf Schema))
    {location : String} {m : Mapped (List (String × FieldOf TypeExpr))},
    mapProperties lib ctx location properties = .ok m →
    (∀ f ∈ m.result, ∀ t, Within t f.2.type → Emits lib ctx m.references t) ∧
      (∀ f ∈ m.result, f.2.isMarked = true → ctx.markModifiers = true) ∧
      ∀ name ∈ m.references, ∃ target ∈ lib.schemas.names, name = lib.typeName target
  | [], location, m, h => by
    rw [mapProperties] at h
    obtain rfl := Except.ok.inj h
    exact ⟨fun _ h => absurd h List.not_mem_nil, fun _ h => absurd h List.not_mem_nil,
      fun _ h => absurd h List.not_mem_nil⟩
  | (name, ⟨schema, required, readOnly, writeOnly⟩) :: rest, location, m, h => by
    rw [mapProperties] at h
    split at h
    · exact sound_mapProperties rest h
    · obtain ⟨type, htype, h⟩ := Outcome.bind_eq_ok_iff.mp h
      obtain ⟨others, hothers, h⟩ := Outcome.bind_eq_ok_iff.mp h
      obtain rfl := Except.ok.inj h
      have ih := sound_map schema htype
      obtain ⟨hparts, hmarked, hknown⟩ := sound_mapProperties rest hothers
      refine ⟨fun f hf t ht => ?_, fun f hf hmark => ?_, known_union ih.known hknown⟩
      · rcases List.mem_cons.mp hf with rfl | hf
        · exact (ih.emits t ht).mono subset_union_left
        · exact (hparts f hf t ht).mono subset_union_right
      · rcases List.mem_cons.mp hf with rfl | hf
        · exact (Bool.and_eq_true_iff.mp hmark).1
        · exact hmarked f hf hmark

/-- The index signature of an object type. -/
theorem sound_mapAdditional : ∀ (additional : AdditionalOf Schema) {location : String}
    {m : Mapped (Option TypeExpr)}, mapAdditional lib ctx location additional = .ok m →
    (∀ type, m.result = some type → ∀ t, Within t type → Emits lib ctx m.references t) ∧
      ∀ name ∈ m.references, ∃ target ∈ lib.schemas.names, name = lib.typeName target
  | .schema s, location, m, h => by
    rw [mapAdditional] at h
    obtain ⟨mapped, hs, h⟩ := Outcome.bind_eq_ok_iff.mp h
    obtain rfl := Except.ok.inj h
    have ih := sound_map s hs
    refine ⟨fun type htype t ht => ?_, ih.known⟩
    obtain rfl := Option.some_inj.mp htype
    exact ih.emits t ht
  | .unsaid, location, m, h => by
    obtain rfl := Except.ok.inj (mapAdditional_unsaid.symm.trans h)
    exact ⟨fun _ h => absurd h (by simp [Mapped.pure]), fun _ h => absurd h List.not_mem_nil⟩
  | .permitted b, location, m, h => by
    obtain rfl := Except.ok.inj (mapAdditional_permitted.symm.trans h)
    exact ⟨fun _ h => absurd h (by simp [Mapped.pure]), fun _ h => absurd h List.not_mem_nil⟩

end

/-! ## Induction -/

/-- A property of types that mapping hands on: names of schemas, days, primitive types and literals
have it, null may be added, and a type has it if its parts have it. -/
structure Inherits (lib : Library) (ctx : Context) (P : TypeExpr → Prop) : Prop where
  reference : ∀ target view, P (.named (lib.typeName target) ctx.qualifier view false)
  day : P .dateTime
  primitive : ∀ type, P (.primitive type)
  literals : ∀ values, P (.literals values)
  orNull : ∀ flag type, P type → P (.orNull flag type)
  array : ∀ items, P items → P (.array items)
  object : ∀ fields index, (∀ f ∈ fields, P f.2.type) → (∀ type ∈ index, P type) →
    P (.object fields index)
  sum : ∀ members, (∀ m ∈ members, P m) → P (.sum members)
  product : ∀ members, (∀ m ∈ members, P m) → P (.product members)

theorem Inherits.mapUntyped {P : TypeExpr → Prop} (hP : Inherits lib ctx P) (reason : String)
    (nullable : Bool) (location : String) : P (mapUntyped reason nullable location).result :=
  hP.orNull nullable .any (hP.primitive .any)

theorem Inherits.combine {P : TypeExpr → Prop} (hP : Inherits lib ctx P) {mode : Composition}
    {location : String} {members : Mapped (List TypeExpr)}
    (hmembers : ∀ type ∈ members.result, P type) : P (combine mode location members).result := by
  obtain ⟨types, references, notes⟩ := members
  match types with
  | [] => exact hP.mapUntyped _ _ _
  | [type] => exact hmembers type List.mem_cons_self
  | type :: other :: rest =>
    cases mode with
    | all => exact hP.product _ hmembers
    | one => exact hP.sum _ hmembers

mutual

/-- What mapping hands on holds of what it gives. -/
theorem Inherits.map {P : TypeExpr → Prop} (hP : Inherits lib ctx P) : ∀ (schema : Schema)
    {location : String} {m : Mapped TypeExpr}, map lib ctx location schema = .ok m → P m.result
  | .reference target nullable, location, m, h => by
    rw [Mapping.map, mapReference] at h
    obtain ⟨concrete, -, h⟩ := Outcome.bind_eq_ok_iff.mp h
    obtain rfl := Except.ok.inj h
    exact hP.reference target (ctx.viewOf concrete)
  | .composite mode members _, location, m, h => by
    rw [Mapping.map] at h
    obtain ⟨mapped, hmembers, h⟩ := Outcome.bind_eq_ok_iff.mp h
    obtain rfl := Except.ok.inj h
    exact hP.combine (hP.mapMembers members hmembers)
  | .array items _, location, m, h => by
    rw [Mapping.map] at h
    obtain ⟨mapped, hitems, h⟩ := Outcome.bind_eq_ok_iff.mp h
    obtain rfl := Except.ok.inj h
    exact hP.array _ (hP.map items hitems)
  | .object properties additional _, location, m, h => by
    rw [Mapping.map] at h
    obtain ⟨fields, hfields, h⟩ := Outcome.bind_eq_ok_iff.mp h
    obtain ⟨index, hindex, h⟩ := Outcome.bind_eq_ok_iff.mp h
    obtain rfl := Except.ok.inj h
    exact hP.object _ _ (hP.mapProperties properties hfields) (hP.mapAdditional additional hindex)
  | .primitive kind format permitted nullable, location, m, h => by
    rw [Mapping.map] at h
    obtain rfl := Except.ok.inj h
    exact mapPrimitive_induction hP.day hP.primitive (hP.literals permitted) hP.orNull kind format
      nullable
  | .untyped reason nullable, location, m, h => by
    rw [Mapping.map] at h
    obtain rfl := Except.ok.inj h
    exact hP.mapUntyped reason nullable location

theorem Inherits.mapMembers {P : TypeExpr → Prop} (hP : Inherits lib ctx P) :
    ∀ (schemas : List Schema) {place : String} {position : Nat} {m : Mapped (List TypeExpr)},
    mapMembers lib ctx place position schemas = .ok m → ∀ type ∈ m.result, P type
  | [], place, position, m, h => by
    rw [Mapping.mapMembers] at h
    obtain rfl := Except.ok.inj h
    exact fun _ htype => absurd htype List.not_mem_nil
  | schema :: rest, place, position, m, h => by
    rw [Mapping.mapMembers] at h
    obtain ⟨first, hfirst, h⟩ := Outcome.bind_eq_ok_iff.mp h
    obtain ⟨others, hothers, h⟩ := Outcome.bind_eq_ok_iff.mp h
    obtain rfl := Except.ok.inj h
    exact List.forall_mem_cons.mpr ⟨hP.map schema hfirst, hP.mapMembers rest hothers⟩

theorem Inherits.mapProperties {P : TypeExpr → Prop} (hP : Inherits lib ctx P) :
    ∀ (properties : List (String × PropertyOf Schema)) {location : String}
    {m : Mapped (List (String × FieldOf TypeExpr))},
    mapProperties lib ctx location properties = .ok m → ∀ f ∈ m.result, P f.2.type
  | [], location, m, h => by
    rw [Mapping.mapProperties] at h
    obtain rfl := Except.ok.inj h
    exact fun _ hf => absurd hf List.not_mem_nil
  | (name, ⟨schema, required, readOnly, writeOnly⟩) :: rest, location, m, h => by
    rw [Mapping.mapProperties] at h
    split at h
    · exact hP.mapProperties rest h
    · obtain ⟨type, htype, h⟩ := Outcome.bind_eq_ok_iff.mp h
      obtain ⟨others, hothers, h⟩ := Outcome.bind_eq_ok_iff.mp h
      obtain rfl := Except.ok.inj h
      exact List.forall_mem_cons.mpr ⟨hP.map schema htype, hP.mapProperties rest hothers⟩

theorem Inherits.mapAdditional {P : TypeExpr → Prop} (hP : Inherits lib ctx P) :
    ∀ (additional : AdditionalOf Schema) {location : String} {m : Mapped (Option TypeExpr)},
    mapAdditional lib ctx location additional = .ok m → ∀ type ∈ m.result, P type
  | .schema s, location, m, h => by
    rw [Mapping.mapAdditional] at h
    obtain ⟨mapped, hs, h⟩ := Outcome.bind_eq_ok_iff.mp h
    obtain rfl := Except.ok.inj h
    rintro type ⟨⟩
    exact hP.map s hs
  | .unsaid, location, m, h => by
    obtain rfl := Except.ok.inj (mapAdditional_unsaid.symm.trans h)
    exact fun type htype => absurd htype (Option.not_mem_none type)
  | .permitted b, location, m, h => by
    obtain rfl := Except.ok.inj (mapAdditional_permitted.symm.trans h)
    exact fun type htype => absurd htype (Option.not_mem_none type)

end

/-! ## References -/

theorem references_combine_subset (mode : Composition) (location : String)
    (members : Mapped (List TypeExpr)) :
    (combine mode location members).references ⊆ members.references := by
  obtain ⟨types, references, notes⟩ := members
  match types with
  | [] => exact List.nil_subset _
  | [type] => exact fun _ hn => hn
  | type :: other :: rest => exact fun _ hn => hn

/-- A name in one of the members stands in the members combined. -/
theorem refersTo_combine {mode : Composition} {location : String}
    {members : Mapped (List TypeExpr)} {type : TypeExpr} (htype : type ∈ members.result)
    {n : String} (h : type.RefersTo n) : (combine mode location members).result.RefersTo n := by
  obtain ⟨types, references, notes⟩ := members
  obtain ⟨qualifier, view, hwithin⟩ := h
  match types, htype with
  | [only], htype =>
    obtain rfl := List.mem_singleton.mp htype
    exact ⟨qualifier, view, hwithin⟩
  | first :: other :: rest, htype =>
    cases mode with
    | all => exact ⟨qualifier, view, .product htype hwithin⟩
    | one => exact ⟨qualifier, view, .sum htype hwithin⟩

mutual

/-- What mapping refers to stands in the type as the name of a schema. -/
theorem refersTo_of_mem_references : ∀ (schema : Schema) {location : String} {m : Mapped TypeExpr},
    map lib ctx location schema = .ok m → ∀ n ∈ m.references, m.result.RefersTo n
  | .reference target nullable, location, m, h => by
    rw [map, mapReference] at h
    obtain ⟨concrete, -, h⟩ := Outcome.bind_eq_ok_iff.mp h
    obtain rfl := Except.ok.inj h
    intro n hn
    obtain rfl := List.mem_singleton.mp hn
    exact ⟨ctx.qualifier, ctx.viewOf concrete, .refl⟩
  | .composite mode members _, location, m, h => by
    rw [map] at h
    obtain ⟨mapped, hmembers, h⟩ := Outcome.bind_eq_ok_iff.mp h
    obtain rfl := Except.ok.inj h
    intro n hn
    obtain ⟨type, htype, hrefers⟩ := refersTo_of_mem_membersReferences members hmembers n
      (references_combine_subset _ _ _ hn)
    exact refersTo_combine htype hrefers
  | .array items _, location, m, h => by
    rw [map] at h
    obtain ⟨mapped, hitems, h⟩ := Outcome.bind_eq_ok_iff.mp h
    obtain rfl := Except.ok.inj h
    intro n hn
    obtain ⟨qualifier, view, hwithin⟩ := refersTo_of_mem_references items hitems n hn
    exact ⟨qualifier, view, .array hwithin⟩
  | .object properties additional _, location, m, h => by
    rw [map] at h
    obtain ⟨fields, hfields, h⟩ := Outcome.bind_eq_ok_iff.mp h
    obtain ⟨index, hindex, h⟩ := Outcome.bind_eq_ok_iff.mp h
    obtain rfl := Except.ok.inj h
    intro n hn
    rcases NameSet.mem_union.mp hn with hn | hn
    · obtain ⟨f, hf, qualifier, view, hwithin⟩ :=
        refersTo_of_mem_propertiesReferences properties hfields n hn
      exact ⟨qualifier, view, .field hf hwithin⟩
    · obtain ⟨type, htype, qualifier, view, hwithin⟩ :=
        refersTo_of_mem_additionalReferences additional hindex n hn
      exact ⟨qualifier, view,
        TypeExpr.within_object_iff.mpr (Or.inr (Or.inr ⟨type, htype, hwithin⟩))⟩
  | .primitive kind format permitted nullable, location, m, h => by
    rw [map] at h
    obtain rfl := Except.ok.inj h
    exact fun n hn => absurd hn List.not_mem_nil
  | .untyped reason nullable, location, m, h => by
    rw [map] at h
    obtain rfl := Except.ok.inj h
    exact fun n hn => absurd hn List.not_mem_nil

theorem refersTo_of_mem_membersReferences : ∀ (schemas : List Schema) {place : String}
    {position : Nat} {m : Mapped (List TypeExpr)},
    mapMembers lib ctx place position schemas = .ok m →
    ∀ n ∈ m.references, ∃ type ∈ m.result, type.RefersTo n
  | [], place, position, m, h => by
    rw [mapMembers] at h
    obtain rfl := Except.ok.inj h
    exact fun n hn => absurd hn List.not_mem_nil
  | schema :: rest, place, position, m, h => by
    rw [mapMembers] at h
    obtain ⟨first, hfirst, h⟩ := Outcome.bind_eq_ok_iff.mp h
    obtain ⟨others, hothers, h⟩ := Outcome.bind_eq_ok_iff.mp h
    obtain rfl := Except.ok.inj h
    intro n hn
    rcases NameSet.mem_union.mp hn with hn | hn
    · exact ⟨first.result, List.mem_cons_self, refersTo_of_mem_references schema hfirst n hn⟩
    · obtain ⟨type, htype, hrefers⟩ := refersTo_of_mem_membersReferences rest hothers n hn
      exact ⟨type, List.mem_cons_of_mem _ htype, hrefers⟩

theorem refersTo_of_mem_propertiesReferences :
    ∀ (properties : List (String × PropertyOf Schema)) {location : String}
    {m : Mapped (List (String × FieldOf TypeExpr))},
    mapProperties lib ctx location properties = .ok m →
    ∀ n ∈ m.references, ∃ f ∈ m.result, f.2.type.RefersTo n
  | [], location, m, h => by
    rw [mapProperties] at h
    obtain rfl := Except.ok.inj h
    exact fun n hn => absurd hn List.not_mem_nil
  | (name, ⟨schema, required, readOnly, writeOnly⟩) :: rest, location, m, h => by
    rw [mapProperties] at h
    split at h
    · exact refersTo_of_mem_propertiesReferences rest h
    · obtain ⟨type, htype, h⟩ := Outcome.bind_eq_ok_iff.mp h
      obtain ⟨others, hothers, h⟩ := Outcome.bind_eq_ok_iff.mp h
      obtain rfl := Except.ok.inj h
      intro n hn
      rcases NameSet.mem_union.mp hn with hn | hn
      · exact ⟨_, List.mem_cons_self, refersTo_of_mem_references schema htype n hn⟩
      · obtain ⟨f, hf, hrefers⟩ := refersTo_of_mem_propertiesReferences rest hothers n hn
        exact ⟨f, List.mem_cons_of_mem _ hf, hrefers⟩

theorem refersTo_of_mem_additionalReferences : ∀ (additional : AdditionalOf Schema)
    {location : String} {m : Mapped (Option TypeExpr)},
    mapAdditional lib ctx location additional = .ok m →
    ∀ n ∈ m.references, ∃ type ∈ m.result, type.RefersTo n
  | .schema s, location, m, h => by
    rw [mapAdditional] at h
    obtain ⟨mapped, hs, h⟩ := Outcome.bind_eq_ok_iff.mp h
    obtain rfl := Except.ok.inj h
    exact fun n hn => ⟨mapped.result, rfl, refersTo_of_mem_references s hs n hn⟩
  | .unsaid, location, m, h => by
    obtain rfl := Except.ok.inj (mapAdditional_unsaid.symm.trans h)
    exact fun n hn => absurd hn List.not_mem_nil
  | .permitted b, location, m, h => by
    obtain rfl := Except.ok.inj (mapAdditional_permitted.symm.trans h)
    exact fun n hn => absurd hn List.not_mem_nil

end

/-- What mapping refers to are the names of schemas in the type. -/
theorem mem_references_iff {location : String} {schema : Schema} {m : Mapped TypeExpr}
    (h : map lib ctx location schema = .ok m) {n : String} :
    n ∈ m.references ↔ m.result.RefersTo n := by
  refine ⟨refersTo_of_mem_references schema h n, ?_⟩
  rintro ⟨qualifier, view, hwithin⟩
  exact ((sound_map schema h).emits _ hwithin).1

end TypedClient.Mapping

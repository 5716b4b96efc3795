import TypedClient.Proofs.Mapping.Parts
import TypedClient.Proofs.Schema.Properties

/-!
# Where the properties of a type come from

Mapping makes a property of a type only where it meets a property of an object in the schema's own
tree, and it copies what the schema says of it.  So the flags of every property in a type, at any
depth, are those of a property in the schema; only the mark is up to the context.

* `TypeExpr.HasField`: a property of an object type anywhere in a type.
* `Context.Makes`: what mapping makes of a property.
* `exists_property_of_field`: the property in the schema that a property in its type comes from.
-/

namespace TypedClient

/-- The property `f` is one of an object type that stands in the type. -/
def TypeExpr.HasField (f : String × FieldOf TypeExpr) (type : TypeExpr) : Prop :=
  ∃ fields index, TypeExpr.Within (.object fields index) type ∧ f ∈ fields

namespace Mapping

open TypeExpr (HasField Within)

variable {lib : Library} {ctx : Context}

/-- The property of a type is what mapping makes of a property of a schema, its type apart: name and
flags are copied, and it is marked if the context marks properties of one direction and it is
one. -/
structure Context.Makes (ctx : Context) (p : String × PropertyOf Schema)
    (f : String × FieldOf TypeExpr) : Prop where
  name : f.1 = p.1
  isOptional : f.2.isOptional = !p.2.required
  isReadOnly : f.2.isReadOnly = p.2.readOnly
  isWriteOnly : f.2.isWriteOnly = p.2.writeOnly
  isMarked : f.2.isMarked = (ctx.markModifiers && (p.2.readOnly || p.2.writeOnly))

/-- The property of a type comes from one in the schema. -/
def Context.MadeIn (ctx : Context) (schema : Schema) (f : String × FieldOf TypeExpr) : Prop :=
  ∃ p, schema.HasProperty p ∧ ctx.Makes p f

/-! ## Types without properties -/

theorem not_hasField_named {f : String × FieldOf TypeExpr} {name qualifier : String}
    {view : Option View} {builtin : Bool} : ¬ HasField f (.named name qualifier view builtin) := by
  rintro ⟨fields, index, hwithin, -⟩
  cases TypeExpr.within_named_iff.mp hwithin

theorem not_hasField_primitive {f : String × FieldOf TypeExpr} {type : PrimitiveType} :
    ¬ HasField f (.primitive type) := by
  rintro ⟨fields, index, hwithin, -⟩
  cases TypeExpr.within_primitive_iff.mp hwithin

theorem not_hasField_literals {f : String × FieldOf TypeExpr} {values : List Value} :
    ¬ HasField f (.literals values) := by
  rintro ⟨fields, index, hwithin, -⟩
  cases TypeExpr.within_literals_iff.mp hwithin

theorem hasField_of_orNull {f : String × FieldOf TypeExpr} {flag : Bool} {type : TypeExpr}
    (h : HasField f (.orNull flag type)) : HasField f type := by
  obtain ⟨fields, index, hwithin, hf⟩ := h
  rcases TypeExpr.within_orNull hwithin with hnull | hwithin
  · cases hnull
  · exact ⟨fields, index, hwithin, hf⟩

theorem not_hasField_mapUntyped {f : String × FieldOf TypeExpr} {reason location : String}
    {nullable : Bool} : ¬ HasField f (mapUntyped reason nullable location).result :=
  fun h => not_hasField_primitive (hasField_of_orNull h)

theorem not_hasField_mapPrimitive {f : String × FieldOf TypeExpr} {kind : PrimitiveKind}
    {format : Option String} {permitted : List Value} {nullable : Bool} :
    ¬ HasField f (mapPrimitive kind format permitted nullable) :=
  mapPrimitive_induction (P := fun type => ¬ HasField f type) not_hasField_named
    (fun _ => not_hasField_primitive) not_hasField_literals
    (fun _ _ h hf => h (hasField_of_orNull hf)) kind format nullable

/-! ## Types with parts -/

/-- A property in the members combined is one in a member. -/
theorem exists_member_of_hasField_combine {mode : Composition} {location : String}
    {members : Mapped (List TypeExpr)} {f : String × FieldOf TypeExpr}
    (h : HasField f (combine mode location members).result) :
    ∃ type ∈ members.result, HasField f type := by
  obtain ⟨types, references, notes⟩ := members
  match types with
  | [] => exact absurd h not_hasField_mapUntyped
  | [type] => exact ⟨type, List.mem_cons_self, h⟩
  | type :: other :: rest =>
    obtain ⟨fields, index, hwithin, hf⟩ := h
    cases mode with
    | all =>
      change Within _ (.product (type :: other :: rest)) at hwithin
      rcases TypeExpr.within_product_iff.mp hwithin with heq | ⟨m, hm, hwithin⟩
      · cases heq
      · exact ⟨m, hm, fields, index, hwithin, hf⟩
    | one =>
      change Within _ (.sum (type :: other :: rest)) at hwithin
      rcases TypeExpr.within_sum_iff.mp hwithin with heq | ⟨m, hm, hwithin⟩
      · cases heq
      · exact ⟨m, hm, fields, index, hwithin, hf⟩

mutual

/-- A property in the type of a schema comes from one in the schema. -/
theorem exists_property_of_field : ∀ (schema : Schema) {location : String} {m : Mapped TypeExpr},
    map lib ctx location schema = .ok m → ∀ f, HasField f m.result → ctx.MadeIn schema f
  | .reference target nullable, location, m, h => by
    rw [map, mapReference] at h
    obtain ⟨concrete, -, h⟩ := Outcome.bind_eq_ok_iff.mp h
    obtain rfl := Except.ok.inj h
    exact fun f hf => absurd hf not_hasField_named
  | .composite mode members _, location, m, h => by
    rw [map] at h
    obtain ⟨mapped, hmembers, h⟩ := Outcome.bind_eq_ok_iff.mp h
    obtain rfl := Except.ok.inj h
    intro f hf
    obtain ⟨type, htype, hf⟩ := exists_member_of_hasField_combine hf
    obtain ⟨s, hs, p, hp, hmade⟩ := exists_property_of_memberField members hmembers type htype f hf
    exact ⟨p, .member hs hp, hmade⟩
  | .array items _, location, m, h => by
    rw [map] at h
    obtain ⟨mapped, hitems, h⟩ := Outcome.bind_eq_ok_iff.mp h
    obtain rfl := Except.ok.inj h
    rintro f ⟨fields, index, hwithin, hf⟩
    rcases TypeExpr.within_array_iff.mp hwithin with heq | hwithin
    · cases heq
    · obtain ⟨p, hp, hmade⟩ :=
        exists_property_of_field items hitems f ⟨fields, index, hwithin, hf⟩
      exact ⟨p, .items hp, hmade⟩
  | .object properties additional _, location, m, h => by
    rw [map] at h
    obtain ⟨own, hown, h⟩ := Outcome.bind_eq_ok_iff.mp h
    obtain ⟨further, hfurther, h⟩ := Outcome.bind_eq_ok_iff.mp h
    obtain rfl := Except.ok.inj h
    obtain ⟨hmade, hinner⟩ := exists_property_of_ownField properties hown
    rintro f ⟨fields, index, hwithin, hf⟩
    rcases TypeExpr.within_object_iff.mp hwithin with
      heq | ⟨g, hg, hwithin⟩ | ⟨type, htype, hwithin⟩
    · obtain ⟨rfl, -⟩ := TypeExpr.object.inj heq
      obtain ⟨p, hp, hmakes⟩ := hmade f hf
      exact ⟨p, .own hp, hmakes⟩
    · obtain ⟨q, hq, p, hp, hmakes⟩ := hinner g hg f ⟨fields, index, hwithin, hf⟩
      exact ⟨p, .property hq hp, hmakes⟩
    · obtain ⟨s, rfl, p, hp, hmakes⟩ :=
        exists_property_of_indexField additional hfurther type htype f
          ⟨fields, index, hwithin, hf⟩
      exact ⟨p, .additional hp, hmakes⟩
  | .primitive kind format permitted nullable, location, m, h => by
    rw [map] at h
    obtain rfl := Except.ok.inj h
    exact fun f hf => absurd hf not_hasField_mapPrimitive
  | .untyped reason nullable, location, m, h => by
    rw [map] at h
    obtain rfl := Except.ok.inj h
    exact fun f hf => absurd hf not_hasField_mapUntyped

/-- The members of a composition. -/
theorem exists_property_of_memberField : ∀ (schemas : List Schema) {place : String}
    {position : Nat} {m : Mapped (List TypeExpr)},
    mapMembers lib ctx place position schemas = .ok m →
    ∀ type ∈ m.result, ∀ f, HasField f type → ∃ s ∈ schemas, ctx.MadeIn s f
  | [], place, position, m, h => by
    rw [mapMembers] at h
    obtain rfl := Except.ok.inj h
    exact fun type htype => absurd htype List.not_mem_nil
  | schema :: rest, place, position, m, h => by
    rw [mapMembers] at h
    obtain ⟨first, hfirst, h⟩ := Outcome.bind_eq_ok_iff.mp h
    obtain ⟨others, hothers, h⟩ := Outcome.bind_eq_ok_iff.mp h
    obtain rfl := Except.ok.inj h
    intro type htype f hf
    rcases List.mem_cons.mp htype with rfl | htype
    · exact ⟨schema, List.mem_cons_self, exists_property_of_field schema hfirst f hf⟩
    · obtain ⟨s, hs, hmade⟩ := exists_property_of_memberField rest hothers type htype f hf
      exact ⟨s, List.mem_cons_of_mem _ hs, hmade⟩

/-- The properties of an object type, and those in the types of its properties. -/
theorem exists_property_of_ownField : ∀ (properties : List (String × PropertyOf Schema))
    {location : String} {m : Mapped (List (String × FieldOf TypeExpr))},
    mapProperties lib ctx location properties = .ok m →
    (∀ f ∈ m.result, ∃ p ∈ properties, ctx.Makes p f) ∧
      ∀ g ∈ m.result, ∀ f, HasField f g.2.type → ∃ q ∈ properties, ctx.MadeIn q.2.schema f
  | [], location, m, h => by
    rw [mapProperties] at h
    obtain rfl := Except.ok.inj h
    exact ⟨fun _ hf => absurd hf List.not_mem_nil, fun _ hg => absurd hg List.not_mem_nil⟩
  | (name, ⟨schema, required, readOnly, writeOnly⟩) :: rest, location, m, h => by
    rw [mapProperties] at h
    split at h
    · obtain ⟨hmade, hinner⟩ := exists_property_of_ownField rest h
      refine ⟨fun f hf => ?_, fun g hg f hf => ?_⟩
      · obtain ⟨p, hp, hmakes⟩ := hmade f hf
        exact ⟨p, List.mem_cons_of_mem _ hp, hmakes⟩
      · obtain ⟨q, hq, hmadeIn⟩ := hinner g hg f hf
        exact ⟨q, List.mem_cons_of_mem _ hq, hmadeIn⟩
    · obtain ⟨type, htype, h⟩ := Outcome.bind_eq_ok_iff.mp h
      obtain ⟨others, hothers, h⟩ := Outcome.bind_eq_ok_iff.mp h
      obtain rfl := Except.ok.inj h
      obtain ⟨hmade, hinner⟩ := exists_property_of_ownField rest hothers
      refine ⟨fun f hf => ?_, fun g hg f hf => ?_⟩
      · rcases List.mem_cons.mp hf with rfl | hf
        · exact ⟨_, List.mem_cons_self, rfl, rfl, rfl, rfl, rfl⟩
        · obtain ⟨p, hp, hmakes⟩ := hmade f hf
          exact ⟨p, List.mem_cons_of_mem _ hp, hmakes⟩
      · rcases List.mem_cons.mp hg with rfl | hg
        · exact ⟨_, List.mem_cons_self, exists_property_of_field schema htype f hf⟩
        · obtain ⟨q, hq, hmadeIn⟩ := hinner g hg f hf
          exact ⟨q, List.mem_cons_of_mem _ hq, hmadeIn⟩

/-- The index signature of an object type. -/
theorem exists_property_of_indexField : ∀ (additional : AdditionalOf Schema) {location : String}
    {m : Mapped (Option TypeExpr)}, mapAdditional lib ctx location additional = .ok m →
    ∀ type ∈ m.result, ∀ f, HasField f type → ∃ s, additional = .schema s ∧ ctx.MadeIn s f
  | .schema s, location, m, h => by
    rw [mapAdditional] at h
    obtain ⟨mapped, hs, h⟩ := Outcome.bind_eq_ok_iff.mp h
    obtain rfl := Except.ok.inj h
    intro type htype f hf
    obtain rfl := Option.some_inj.mp htype
    exact ⟨s, rfl, exists_property_of_field s hs f hf⟩
  | .unsaid, location, m, h => by
    obtain rfl := Except.ok.inj (mapAdditional_unsaid.symm.trans h)
    exact fun type htype => absurd htype (by simp [Mapped.pure])
  | .permitted b, location, m, h => by
    obtain rfl := Except.ok.inj (mapAdditional_permitted.symm.trans h)
    exact fun type htype => absurd htype (by simp [Mapped.pure])

end

end Mapping

end TypedClient

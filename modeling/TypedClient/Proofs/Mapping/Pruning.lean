import TypedClient.Proofs.Mapping.Presentation
import TypedClient.Proofs.Schema.Properties

/-!
# Views as prunings

A view hides the properties that belong to the other side only.  Mapping leaves them out while it
goes through the schema's own tree, at every depth down to the references.  The same type is found
by mapping without a view and taking the hidden properties out of the type, and also by taking them
out of the schema and mapping what is left; the second way tells that the references and the notes
are those of what is left.

* `View.hides`: the properties that a view hides.
* `TypeExpr.pruned`, `Schema.pruned`: a type, and a schema, without them.
* `map_through`: mapping through a view is mapping what the view leaves of the schema.
* `map_pruned`: the type of what is left is what is left of the type.
* `map_view_pruned`: the two together.
-/

namespace TypedClient

/-- Does the view hide a property with these flags? -/
def View.hides : View → Bool → Bool → Bool
  | .input, readOnly, _ => readOnly
  | .output, _, writeOnly => writeOnly

/-! ## What a view leaves of a type -/

namespace TypeExpr

mutual

/-- The type without the properties that the view hides. -/
def pruned (view : View) : TypeExpr → TypeExpr
  | .named name qualifier seen builtin => .named name qualifier seen builtin
  | .array items => .array (items.pruned view)
  | .object fields index => .object (prunedFields view fields) (prunedIndex view index)
  | .sum members => .sum (prunedMembers view members)
  | .product members => .product (prunedMembers view members)
  | .literals values => .literals values
  | .primitive type => .primitive type
  | .nullable inner => .nullable (inner.pruned view)

/-- The properties of an object type that the view leaves, in order. -/
def prunedFields (view : View) : List (String × FieldOf TypeExpr) → List (String × FieldOf TypeExpr)
  | [] => []
  | (name, ⟨type, isOptional, isReadOnly, isWriteOnly, isMarked⟩) :: rest =>
    if view.hides isReadOnly isWriteOnly then prunedFields view rest
    else
      (name, ⟨type.pruned view, isOptional, isReadOnly, isWriteOnly, isMarked⟩) ::
        prunedFields view rest

/-- An index signature without the properties that the view hides. -/
def prunedIndex (view : View) : Option TypeExpr → Option TypeExpr
  | none => none
  | some type => some (type.pruned view)

/-- A list of types without the properties that the view hides. -/
def prunedMembers (view : View) : List TypeExpr → List TypeExpr
  | [] => []
  | type :: rest => type.pruned view :: prunedMembers view rest

end

theorem pruned_orNull (view : View) (flag : Bool) (type : TypeExpr) :
    pruned view (orNull flag type) = orNull flag (type.pruned view) := by
  cases flag with
  | false => rfl
  | true =>
    change pruned view (.nullable type) = .nullable (type.pruned view)
    rw [pruned]

theorem pruned_dateTime (view : View) : pruned view .dateTime = .dateTime := rfl

theorem pruned_any (view : View) : pruned view .any = .any := rfl

end TypeExpr

/-! ## What a view leaves of a schema -/

namespace Schema

mutual

/-- The schema without the properties that the view hides. -/
def pruned (view : View) : Schema → Schema
  | .reference target nullable => .reference target nullable
  | .composite mode members nullable => .composite mode (prunedMembers view members) nullable
  | .array items nullable => .array (items.pruned view) nullable
  | .object properties additional nullable =>
    .object (prunedProperties view properties) (prunedAdditional view additional) nullable
  | .primitive kind format permitted nullable => .primitive kind format permitted nullable
  | .untyped reason nullable => .untyped reason nullable

/-- The properties of an object that the view leaves, in order. -/
def prunedProperties (view : View) :
    List (String × PropertyOf Schema) → List (String × PropertyOf Schema)
  | [] => []
  | (name, ⟨schema, required, readOnly, writeOnly⟩) :: rest =>
    if view.hides readOnly writeOnly then prunedProperties view rest
    else (name, ⟨schema.pruned view, required, readOnly, writeOnly⟩) :: prunedProperties view rest

/-- What an object says of further properties, without those that the view hides. -/
def prunedAdditional (view : View) : AdditionalOf Schema → AdditionalOf Schema
  | .schema s => .schema (s.pruned view)
  | .permitted b => .permitted b
  | .unsaid => .unsaid

/-- A list of schemas without the properties that the view hides. -/
def prunedMembers (view : View) : List Schema → List Schema
  | [] => []
  | schema :: rest => schema.pruned view :: prunedMembers view rest

end

/-- A property that belongs to both directions is hidden by no view. -/
theorem hides_of_not_directed {view : View} {readOnly writeOnly : Bool}
    (h : (readOnly || writeOnly) = false) : view.hides readOnly writeOnly = false := by
  obtain ⟨hread, hwrite⟩ := Bool.or_eq_false_iff.mp h
  cases view with
  | input => exact hread
  | output => exact hwrite

mutual

/-- A schema without properties of one direction is left as it is. -/
theorem pruned_eq_self {view : View} : ∀ {s : Schema}, s.hasModifier = false → s.pruned view = s
  | .reference _ _, _ => by rw [pruned]
  | .composite _ members _, h => by
    rw [hasModifier] at h
    rw [pruned, prunedMembers_eq_self h]
  | .array items _, h => by
    rw [hasModifier] at h
    rw [pruned, pruned_eq_self h]
  | .object properties additional _, h => by
    rw [hasModifier, Bool.or_eq_false_iff] at h
    rw [pruned, prunedProperties_eq_self h.1, prunedAdditional_eq_self h.2]
  | .primitive _ _ _ _, _ => by rw [pruned]
  | .untyped _ _, _ => by rw [pruned]

theorem prunedProperties_eq_self {view : View} : ∀ {properties : List (String × PropertyOf Schema)},
    propertiesHaveModifier properties = false → prunedProperties view properties = properties
  | [], _ => by rw [prunedProperties]
  | (name, ⟨schema, required, readOnly, writeOnly⟩) :: rest, h => by
    rw [propertiesHaveModifier, Bool.or_eq_false_iff, Bool.or_eq_false_iff] at h
    obtain ⟨⟨hdirected, hschema⟩, hrest⟩ := h
    rw [prunedProperties, hides_of_not_directed hdirected, if_neg Bool.false_ne_true,
      pruned_eq_self hschema, prunedProperties_eq_self hrest]

theorem prunedAdditional_eq_self {view : View} : ∀ {additional : AdditionalOf Schema},
    additionalHasModifier additional = false → prunedAdditional view additional = additional
  | .schema s, h => by
    rw [additionalHasModifier] at h
    rw [prunedAdditional, pruned_eq_self h]
  | .permitted _, _ => by rw [prunedAdditional]
  | .unsaid, _ => by rw [prunedAdditional]

theorem prunedMembers_eq_self {view : View} : ∀ {members : List Schema},
    membersHaveModifier members = false → prunedMembers view members = members
  | [], _ => by rw [prunedMembers]
  | schema :: rest, h => by
    rw [membersHaveModifier, Bool.or_eq_false_iff] at h
    rw [prunedMembers, pruned_eq_self h.1, prunedMembers_eq_self h.2]

end

end Schema

namespace Mapping

open TypeExpr (prunedFields prunedIndex)

variable {lib : Library} {ctx : Context}

/-! ## Mapping what is left of a schema -/

theorem drops_through_some (view : View) (readOnly writeOnly : Bool) :
    (ctx.through (some view)).drops readOnly writeOnly = view.hides readOnly writeOnly := by
  cases view <;> rfl

theorem drops_through_none (readOnly writeOnly : Bool) :
    (ctx.through none).drops readOnly writeOnly = false := rfl

/-- A context that wraps no views presents the name of a schema alike through every view. -/
theorem mapReference_through (hwraps : ctx.wrapViews = false) (view other : Option View)
    (location target : String) (nullable : Bool) :
    mapReference lib (ctx.through view) location target nullable =
      mapReference lib (ctx.through other) location target nullable := by
  have hviewOf : ∀ (seen : Option View) (concrete : Schema),
      (ctx.through seen).viewOf concrete = none := by
    intro seen concrete
    rw [Context.viewOf, Context.through, hwraps]
    rfl
  rw [mapReference, mapReference]
  simp only [hviewOf]
  rfl

mutual

/-- Mapping through a view is mapping what the view leaves of the schema, without a view. -/
theorem map_through (hwraps : ctx.wrapViews = false) (view : View) :
    ∀ (schema : Schema) (location : String),
      map lib (ctx.through (some view)) location schema =
        map lib (ctx.through none) location (schema.pruned view)
  | .reference target nullable, location => by
    rw [Schema.pruned, map, map]
    exact mapReference_through hwraps (some view) none location target nullable
  | .composite mode members _, location => by
    rw [Schema.pruned, map, map, mapMembers_through hwraps view members]
  | .array items _, location => by
    rw [Schema.pruned, map, map, map_through hwraps view items]
  | .object properties additional _, location => by
    rw [Schema.pruned, map, map, mapProperties_through hwraps view properties,
      mapAdditional_through hwraps view additional]
  | .primitive kind format permitted nullable, location => by rw [Schema.pruned, map, map]
  | .untyped reason nullable, location => by rw [Schema.pruned, map, map]

/-- `map_through` for the members of a composition. -/
theorem mapMembers_through (hwraps : ctx.wrapViews = false) (view : View) :
    ∀ (schemas : List Schema) (place : String) (position : Nat),
      mapMembers lib (ctx.through (some view)) place position schemas =
        mapMembers lib (ctx.through none) place position (Schema.prunedMembers view schemas)
  | [], place, position => by rw [Schema.prunedMembers, mapMembers, mapMembers]
  | schema :: rest, place, position => by
    rw [Schema.prunedMembers, mapMembers, mapMembers, map_through hwraps view schema,
      mapMembers_through hwraps view rest]

/-- `map_through` for the properties of an object. -/
theorem mapProperties_through (hwraps : ctx.wrapViews = false) (view : View) :
    ∀ (properties : List (String × PropertyOf Schema)) (location : String),
      mapProperties lib (ctx.through (some view)) location properties =
        mapProperties lib (ctx.through none) location (Schema.prunedProperties view properties)
  | [], location => by rw [Schema.prunedProperties, mapProperties, mapProperties]
  | (name, ⟨schema, required, readOnly, writeOnly⟩) :: rest, location => by
    rw [Schema.prunedProperties, mapProperties, drops_through_some,
      mapProperties_through hwraps view rest, map_through hwraps view schema]
    cases view.hides readOnly writeOnly with
    | true => rfl
    | false =>
      rw [if_neg Bool.false_ne_true, if_neg Bool.false_ne_true, mapProperties, drops_through_none,
        if_neg Bool.false_ne_true]
      rfl

/-- `map_through` for the properties an object does not name. -/
theorem mapAdditional_through (hwraps : ctx.wrapViews = false) (view : View) :
    ∀ (additional : AdditionalOf Schema) (location : String),
      mapAdditional lib (ctx.through (some view)) location additional =
        mapAdditional lib (ctx.through none) location (Schema.prunedAdditional view additional)
  | .schema s, location => by
    rw [Schema.prunedAdditional, mapAdditional, mapAdditional, map_through hwraps view s]
  | .permitted b, location => by rw [Schema.prunedAdditional]; rfl
  | .unsaid, location => by rw [Schema.prunedAdditional]; rfl

end

/-! ## What is left of a type -/

theorem pruned_mapUntyped (view : View) (reason : String) (nullable : Bool) (location : String) :
    (mapUntyped reason nullable location).result.pruned view =
      (mapUntyped reason nullable location).result := by
  rw [mapUntyped, TypeExpr.pruned_orNull, TypeExpr.pruned_any]

theorem pruned_mapPrimitive (view : View) (kind : PrimitiveKind) (format : Option String)
    (permitted : List Value) (nullable : Bool) :
    (mapPrimitive kind format permitted nullable).pruned view =
      mapPrimitive kind format permitted nullable := by
  refine mapPrimitive_induction (P := fun type => type.pruned view = type)
    (TypeExpr.pruned_dateTime view) ?_ ?_ ?_ kind format nullable
  · exact fun type => by rw [TypeExpr.pruned]
  · rw [TypeExpr.pruned]
  · exact fun flag type h => by rw [TypeExpr.pruned_orNull, h]

/-- A view hides no member of a composition, so what is left of the members combined is what is left
of each, combined. -/
theorem combine_pruned {view : View} {mode : Composition} {location : String}
    {members left : Mapped (List TypeExpr)}
    (h : left.result = TypeExpr.prunedMembers view members.result) :
    (combine mode location left).result = (combine mode location members).result.pruned view := by
  obtain ⟨types, references, notes⟩ := members
  obtain ⟨_, leftReferences, leftNotes⟩ := left
  obtain rfl := h
  match types with
  | [] => exact (pruned_mapUntyped view _ _ _).symm
  | [type] => rfl
  | type :: other :: rest =>
    cases mode with
    | all =>
      change TypeExpr.product (TypeExpr.prunedMembers view (type :: other :: rest)) =
        TypeExpr.pruned view (.product (type :: other :: rest))
      rw [TypeExpr.pruned]
    | one =>
      change TypeExpr.sum (TypeExpr.prunedMembers view (type :: other :: rest)) =
        TypeExpr.pruned view (.sum (type :: other :: rest))
      rw [TypeExpr.pruned]

mutual

/-- What a view leaves of a schema maps to what it leaves of the schema's type. -/
theorem map_pruned (view : View) : ∀ (schema : Schema) {location : String} {m : Mapped TypeExpr},
    map lib (ctx.through none) location schema = .ok m →
      ∃ n, map lib (ctx.through none) location (schema.pruned view) = .ok n ∧
        n.result = m.result.pruned view
  | .reference target nullable, location, m, h => by
    refine ⟨m, by rw [Schema.pruned, h], ?_⟩
    rw [map, mapReference] at h
    obtain ⟨concrete, -, h⟩ := Outcome.bind_eq_ok_iff.mp h
    obtain rfl := Except.ok.inj h
    exact (TypeExpr.pruned.eq_1 ..).symm
  | .composite mode members _, location, m, h => by
    rw [map] at h
    obtain ⟨mapped, hmembers, h⟩ := Outcome.bind_eq_ok_iff.mp h
    obtain rfl := Except.ok.inj h
    obtain ⟨left, hleft, hresult⟩ := mapMembers_pruned view members hmembers
    refine ⟨combine mode location left, ?_, combine_pruned hresult⟩
    rw [Schema.pruned, map, hleft]
    rfl
  | .array items _, location, m, h => by
    rw [map] at h
    obtain ⟨mapped, hitems, h⟩ := Outcome.bind_eq_ok_iff.mp h
    obtain rfl := Except.ok.inj h
    obtain ⟨left, hleft, hresult⟩ := map_pruned view items hitems
    refine ⟨left.map .array, ?_, ?_⟩
    · rw [Schema.pruned, map, hleft]
      rfl
    · rw [Mapped.map, Mapped.map, TypeExpr.pruned, hresult]
  | .object properties additional _, location, m, h => by
    rw [map] at h
    obtain ⟨fields, hfields, h⟩ := Outcome.bind_eq_ok_iff.mp h
    obtain ⟨index, hindex, h⟩ := Outcome.bind_eq_ok_iff.mp h
    obtain rfl := Except.ok.inj h
    obtain ⟨leftFields, hleftFields, hown⟩ := mapProperties_pruned view properties hfields
    obtain ⟨leftIndex, hleftIndex, hfurther⟩ := mapAdditional_pruned view additional hindex
    refine ⟨leftFields.join .object leftIndex, ?_, ?_⟩
    · rw [Schema.pruned, map, hleftFields, hleftIndex]
      rfl
    · rw [Mapped.join, Mapped.join, TypeExpr.pruned, hown, hfurther]
  | .primitive kind format permitted nullable, location, m, h => by
    refine ⟨m, by rw [Schema.pruned, h], ?_⟩
    rw [map] at h
    obtain rfl := Except.ok.inj h
    exact (pruned_mapPrimitive view kind format permitted nullable).symm
  | .untyped reason nullable, location, m, h => by
    refine ⟨m, by rw [Schema.pruned, h], ?_⟩
    rw [map] at h
    obtain rfl := Except.ok.inj h
    exact (pruned_mapUntyped view reason nullable location).symm

/-- `map_pruned` for the members of a composition. -/
theorem mapMembers_pruned (view : View) : ∀ (schemas : List Schema) {place : String}
    {position : Nat} {m : Mapped (List TypeExpr)},
    mapMembers lib (ctx.through none) place position schemas = .ok m →
      ∃ n, mapMembers lib (ctx.through none) place position
          (Schema.prunedMembers view schemas) = .ok n ∧
        n.result = TypeExpr.prunedMembers view m.result
  | [], place, position, m, h => by
    refine ⟨m, by rw [Schema.prunedMembers, h], ?_⟩
    rw [mapMembers] at h
    obtain rfl := Except.ok.inj h
    rfl
  | schema :: rest, place, position, m, h => by
    rw [mapMembers] at h
    obtain ⟨first, hfirst, h⟩ := Outcome.bind_eq_ok_iff.mp h
    obtain ⟨others, hothers, h⟩ := Outcome.bind_eq_ok_iff.mp h
    obtain rfl := Except.ok.inj h
    obtain ⟨leftFirst, hleftFirst, htype⟩ := map_pruned view schema hfirst
    obtain ⟨leftOthers, hleftOthers, htypes⟩ := mapMembers_pruned view rest hothers
    refine ⟨leftFirst.join List.cons leftOthers, ?_, ?_⟩
    · rw [Schema.prunedMembers, mapMembers, hleftFirst, hleftOthers]
      rfl
    · rw [Mapped.join, Mapped.join, TypeExpr.prunedMembers, htype, htypes]

/-- `map_pruned` for the properties of an object. -/
theorem mapProperties_pruned (view : View) : ∀ (properties : List (String × PropertyOf Schema))
    {location : String} {m : Mapped (List (String × FieldOf TypeExpr))},
    mapProperties lib (ctx.through none) location properties = .ok m →
      ∃ n, mapProperties lib (ctx.through none) location
          (Schema.prunedProperties view properties) = .ok n ∧
        n.result = prunedFields view m.result
  | [], location, m, h => by
    refine ⟨m, by rw [Schema.prunedProperties, h], ?_⟩
    rw [mapProperties] at h
    obtain rfl := Except.ok.inj h
    rfl
  | (name, ⟨schema, required, readOnly, writeOnly⟩) :: rest, location, m, h => by
    rw [mapProperties, drops_through_none, if_neg Bool.false_ne_true] at h
    obtain ⟨type, htype, h⟩ := Outcome.bind_eq_ok_iff.mp h
    obtain ⟨others, hothers, h⟩ := Outcome.bind_eq_ok_iff.mp h
    obtain rfl := Except.ok.inj h
    obtain ⟨leftOthers, hleftOthers, hrest⟩ := mapProperties_pruned view rest hothers
    rw [Schema.prunedProperties, Mapped.join, prunedFields]
    cases view.hides readOnly writeOnly with
    | true => exact ⟨leftOthers, hleftOthers, hrest⟩
    | false =>
      obtain ⟨leftType, hleftType, hfirst⟩ := map_pruned view schema htype
      rw [if_neg Bool.false_ne_true, if_neg Bool.false_ne_true, mapProperties, drops_through_none,
        if_neg Bool.false_ne_true, hleftType, hleftOthers, ← hfirst, ← hrest]
      exact ⟨_, rfl, rfl⟩

/-- `map_pruned` for the properties an object does not name. -/
theorem mapAdditional_pruned (view : View) : ∀ (additional : AdditionalOf Schema)
    {location : String} {m : Mapped (Option TypeExpr)},
    mapAdditional lib (ctx.through none) location additional = .ok m →
      ∃ n, mapAdditional lib (ctx.through none) location
          (Schema.prunedAdditional view additional) = .ok n ∧
        n.result = prunedIndex view m.result
  | .schema s, location, m, h => by
    rw [mapAdditional] at h
    obtain ⟨mapped, hs, h⟩ := Outcome.bind_eq_ok_iff.mp h
    obtain rfl := Except.ok.inj h
    obtain ⟨left, hleft, hresult⟩ := map_pruned view s hs
    refine ⟨left.map some, ?_, ?_⟩
    · rw [Schema.prunedAdditional, mapAdditional, hleft]
      rfl
    · rw [Mapped.map, Mapped.map, prunedIndex, hresult]
  | .permitted b, location, m, h => by
    refine ⟨m, by rw [Schema.prunedAdditional, h], ?_⟩
    obtain rfl := Except.ok.inj (mapAdditional_permitted.symm.trans h)
    rfl
  | .unsaid, location, m, h => by
    refine ⟨m, by rw [Schema.prunedAdditional, h], ?_⟩
    obtain rfl := Except.ok.inj (mapAdditional_unsaid.symm.trans h)
    rfl

end

/-! ## Views -/

/-- Where a schema maps without a view, it maps through each, in a context that wraps no views: to
its type without the properties that the view hides, and with the references and notes of what the
view leaves of the schema.  The references are the names that are left in the type. -/
theorem map_view_pruned (hwraps : ctx.wrapViews = false) {location : String} {schema : Schema}
    {m : Mapped TypeExpr} (h : map lib (ctx.through none) location schema = .ok m) (view : View) :
    ∃ n, map lib (ctx.through (some view)) location schema = .ok n ∧
      n.result = m.result.pruned view ∧
      map lib (ctx.through none) location (schema.pruned view) = .ok n ∧
      ∀ name, name ∈ n.references ↔ (m.result.pruned view).RefersTo name := by
  obtain ⟨n, hleft, hresult⟩ := map_pruned view schema h
  refine ⟨n, ?_, hresult, hleft, fun name => ?_⟩
  · rw [map_through hwraps, hleft]
  · rw [← hresult]
    exact mem_references_iff hleft

/-- An account, whose number is read only, with keys, whose secrets are write only; the owner of a
key is an account again. -/
def account : Schema :=
  .object
    [("number", ⟨.untyped "no type" false, true, true, false⟩),
      ("keys", ⟨.array (.object
        [("secret", ⟨.primitive .string none [] false, true, false, true⟩),
          ("owner", ⟨.reference "Account" false, false, false, false⟩)] .unsaid false) false,
        true, false, false⟩)]
    .unsaid false

/-- The library of accounts. -/
def directory : Library := ⟨[("Account", account)]⟩

/-- The type of a key's owner. -/
def ownerField : String × FieldOf TypeExpr :=
  ("owner", ⟨.named "Account" "" none false, true, false, false, false⟩)

/-- The type of a key's secret. -/
def secretField : String × FieldOf TypeExpr :=
  ("secret", ⟨.primitive .string, false, false, true, false⟩)

/-- The type of an account's number. -/
def numberField : String × FieldOf TypeExpr := ("number", ⟨.any, false, true, false, false⟩)

/-- The type of an account's keys, by the properties of a key. -/
def keysField (key : List (String × FieldOf TypeExpr)) : String × FieldOf TypeExpr :=
  ("keys", ⟨.array (.object key none), false, false, false, false⟩)

/-- An account has no number in requests, and its keys have no secrets in responses. -/
theorem map_view_pruned_account :
    ({} : Context).wrapViews = false ∧
      map directory (({} : Context).through none) "" account =
        .ok ⟨.object [numberField, keysField [secretField, ownerField]] none, ["Account"],
          [unsupported "no type" "/properties/number"]⟩ ∧
      (∃ n, map directory (({} : Context).through (some .input)) "" account = .ok n ∧
        n.result = .object [keysField [secretField, ownerField]] none) ∧
      ∃ n, map directory (({} : Context).through (some .output)) "" account = .ok n ∧
        n.result = .object [numberField, keysField [ownerField]] none := by
  have hends : directory.Ends (.reference "Account" false) account :=
    ⟨.single ⟨"Account", false, rfl, rfl⟩, rfl⟩
  have htypeName : directory.typeName "Account" = "Account" := by decide +kernel
  have hmap : map directory (({} : Context).through none) "" account =
      .ok ⟨.object [numberField, keysField [secretField, ownerField]] none, ["Account"],
        [unsupported "no type" "/properties/number"]⟩ := by
    simp only [account, map, mapProperties, mapAdditional, drops_through_none, mapReference,
      Library.resolve_eq_ok_iff.mpr hends, htypeName]
    rfl
  refine ⟨rfl, hmap, ?_, ?_⟩
  · obtain ⟨n, hn, hresult, -⟩ := map_view_pruned rfl hmap .input
    exact ⟨n, hn, hresult.trans rfl⟩
  · obtain ⟨n, hn, hresult, -⟩ := map_view_pruned rfl hmap .output
    exact ⟨n, hn, hresult.trans rfl⟩

end Mapping

end TypedClient

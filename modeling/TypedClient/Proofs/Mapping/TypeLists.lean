import TypedClient.Proofs.Mapping.Parts
import TypedClient.Schema.Reading

/-!
# Lists of types

A schema object may list several types, and null among them.  A single type besides null gives a
schema that may be null.  Several types give a composition with a member for each; null is noted of
the composition, which mapping leaves unread, and the members are read without it.  So null is lost
between several types, unless the flag `nullable` or the permitted values say it of every member.

* `TypeExpr.offersNull`: a type with null added, or a union of which an alternative has null added.
* `Schema.ListsTypes`, `Schema.IsPlain`: the schema objects in question.
* `Schema.ofValue_of_listsTypes`: the schema that such an object describes.
* `Mapping.offersNull_iff_of_listsTypes`: when its type offers null, beside the same types with the
  flag `nullable`.
* `Mapping.not_offersNull_listed`: texts, integers and null, mapped to a type without null.
-/

namespace TypedClient

/-- Is null added to the type? -/
def TypeExpr.isNullable : TypeExpr → Bool
  | .nullable _ => true
  | _ => false

/-- Is null added to the type, or to one of its alternatives? -/
def TypeExpr.offersNull : TypeExpr → Bool
  | .sum members => members.any isNullable
  | type => type.isNullable

namespace Schema

variable {entries : Entries} {types : List Value} {kinds : List PrimitiveKind}

/-- The schema object is no reference and no composition. -/
structure IsPlain (entries : Entries) : Prop where
  reference : gives entries "$ref" = false
  allOf : givesList entries "allOf" = false
  oneOf : givesList entries "oneOf" = false
  anyOf : givesList entries "anyOf" = false

/-- The schema object lists types; besides the word `null` they are those of the given kinds, of
which there is at least one. -/
structure ListsTypes (entries : Entries) (types : List Value) (kinds : List PrimitiveKind) :
    Prop where
  type : Value.lookup? "type" entries = some (.list types)
  words : (types.filter fun t => !isNullWord t) = kinds.map fun kind => .text kind.name
  nonempty : kinds ≠ []

/-- The word of the format, if one is given. -/
def formatWord (entries : Entries) : Option String :=
  let format := Value.getD (.map entries) "format"
  if format.isNull then none else some format.display

/-- Is null among the permitted values? -/
def permitsNull (entries : Entries) : Bool :=
  (Value.itemsUnder entries "enum").any Value.isNull

/-- The schema that the other keywords give for one kind of values without parts. -/
def ofKind (entries : Entries) (nullable : Bool) (kind : PrimitiveKind) : Schema :=
  .primitive kind (formatWord entries) (permittedValues entries) (nullable || permitsNull entries)

/-- The schema for several kinds of values without parts: for a single one its own, with null if
null is listed; else a composition of members without it. -/
def ofKinds (entries : Entries) (nullable listed : Bool) : List PrimitiveKind → Schema
  | [kind] => ofKind entries (nullable || listed) kind
  | kinds => .composite .one (kinds.map (ofKind entries nullable)) (nullable || listed)

theorem primitiveKind?_name (kind : PrimitiveKind) : primitiveKind? kind.name = some kind := by
  cases kind <;> rfl

/-- A plain schema object announces nothing but its type, if it has one without parts. -/
theorem announced_name (h : IsPlain entries) (kind : PrimitiveKind) :
    announced entries (.text kind.name) = .other := by
  have harray : (Value.text kind.name).isWord "array" = false := by cases kind <;> rfl
  have hobject : (Value.text kind.name).isWord "object" = false := by cases kind <;> rfl
  rw [announced, h.reference, h.allOf, h.oneOf, h.anyOf, harray, hobject]
  rfl

theorem primitiveOrUntyped_name (entries : Entries) (nullable : Bool) (kind : PrimitiveKind) :
    primitiveOrUntyped entries nullable (.text kind.name) = .ok (ofKind entries nullable kind) := by
  have hread : primitiveOrUntyped entries nullable (.text kind.name) = .ok (ofType entries
      (nullable || permitsNull entries) (.text kind.name)) := rfl
  rw [hread, ofType, primitiveKind?_name]
  rfl

section

variable {shape : Bool → Value → Except Misfit Schema}

/-- The members of a composition by types are read of the types besides null. -/
theorem byTypes_eq_ok {nullable : Bool}
    (h : ∀ kind, shape nullable (.text kind.name) = .ok (ofKind entries nullable kind))
    (hwords : (types.filter fun t => !isNullWord t) = kinds.map fun kind => .text kind.name) :
    byTypes shape nullable types = .ok (kinds.map (ofKind entries nullable)) := by
  induction types generalizing kinds with
  | nil =>
    obtain rfl := List.map_eq_nil_iff.mp hwords.symm
    rw [byTypes]
    rfl
  | cons t rest ih =>
    rw [byTypes]
    cases hnull : isNullWord t with
    | true =>
      rw [List.filter_cons_of_neg (by simp [hnull])] at hwords
      rw [if_pos rfl]
      exact ih hwords
    | false =>
      rw [List.filter_cons_of_pos (by simp [hnull])] at hwords
      obtain ⟨kind, others, rfl, hkind, hothers⟩ := List.map_eq_cons_iff.mp hwords.symm
      subst hkind
      rw [if_neg Bool.false_ne_true, byType, h, ih hothers.symm]
      · rfl
      · intro _ hlist
        cases hlist

theorem byType_list_eq_ok
    (h : ∀ nullable kind, shape nullable (.text kind.name) = .ok (ofKind entries nullable kind))
    (nullable : Bool) (hlists : ListsTypes entries types kinds) :
    byType shape nullable (.list types) =
      .ok (ofKinds entries nullable (types.any isNullWord) kinds) := by
  have hmembers := byTypes_eq_ok (h nullable) hlists.words
  rw [byType, hlists.words]
  match kinds, hlists.nonempty with
  | [kind], _ => exact h _ kind
  | kind :: second :: rest, _ =>
    rw [hmembers]
    rfl

end

/-- A plain schema object is read by its types, each as the schema of its kind. -/
theorem exists_shape (h : IsPlain entries) : ∃ shape,
    ofValue (.map entries) = byType shape (flag (.map entries) "nullable")
        (Value.getD (.map entries) "type") ∧
      ∀ nullable kind, shape nullable (.text kind.name) = .ok (ofKind entries nullable kind) := by
  refine ⟨_, ofValue.eq_def _, fun nullable kind => ?_⟩
  dsimp only
  rw [announced_name h]
  exact primitiveOrUntyped_name entries nullable kind

/-- What a plain schema object describes that lists kinds of values without parts. -/
theorem ofValue_of_listsTypes (h : IsPlain entries) (hlists : ListsTypes entries types kinds) :
    ofValue (.map entries) =
      .ok (ofKinds entries (flag (.map entries) "nullable") (types.any isNullWord) kinds) := by
  obtain ⟨shape, hread, hshape⟩ := exists_shape h
  have htype : Value.getD (.map entries) "type" = .list types := by
    rw [Value.getD, Value.get?, hlists.type]
    rfl
  rw [hread, htype]
  exact byType_list_eq_ok hshape _ hlists

/-- What a plain schema object describes whose type is one kind of values without parts. -/
theorem ofValue_of_type {kind : PrimitiveKind} (h : IsPlain entries)
    (htype : Value.lookup? "type" entries = some (.text kind.name)) :
    ofValue (.map entries) = .ok (ofKind entries (flag (.map entries) "nullable") kind) := by
  obtain ⟨shape, hread, hshape⟩ := exists_shape h
  have htype : Value.getD (.map entries) "type" = .text kind.name := by
    rw [Value.getD, Value.get?, htype]
    rfl
  rw [hread, htype, byType, hshape]
  intro _ hlist
  cases hlist

end Schema

namespace Mapping

open Schema (IsPlain ListsTypes ofKind ofKinds formatWord permitsNull permittedValues flag)

variable {lib : Library} {ctx : Context} {entries : Entries} {types : List Value}
  {kinds : List PrimitiveKind}

/-! ## The types -/

/-- A primitive type has null added exactly if the schema may be null. -/
theorem isNullable_mapPrimitive (kind : PrimitiveKind) (format : Option String)
    (permitted : List Value) (nullable : Bool) :
    (mapPrimitive kind format permitted nullable).isNullable = nullable := by
  cases nullable with
  | true => rfl
  | false =>
    have hliterals : ∀ type : PrimitiveType, (if permitted.isEmpty then TypeExpr.primitive type
        else .literals permitted).isNullable = false := by
      intro type
      split <;> rfl
    cases kind with
    | boolean => exact hliterals .boolean
    | integer => exact hliterals .integer
    | number => exact hliterals .number
    | string =>
      change (if isDateFormat format then TypeExpr.dateTime else _).isNullable = false
      split
      · rfl
      · exact hliterals .string

/-- The type of the schema for one kind. -/
def typeOfKind (entries : Entries) (nullable : Bool) (kind : PrimitiveKind) : TypeExpr :=
  mapPrimitive kind (formatWord entries) (permittedValues entries) (nullable || permitsNull entries)

/-- The type of the schema for several kinds. -/
def typeOfKinds (entries : Entries) (nullable listed : Bool) : List PrimitiveKind → TypeExpr
  | [kind] => typeOfKind entries (nullable || listed) kind
  | kinds => .sum (kinds.map (typeOfKind entries nullable))

theorem map_ofKind (location : String) (nullable : Bool) (kind : PrimitiveKind) :
    map lib ctx location (ofKind entries nullable kind) =
      .ok (.pure (typeOfKind entries nullable kind)) := by
  rw [ofKind, map]
  rfl

theorem mapMembers_ofKind (place : String) (nullable : Bool) (kinds : List PrimitiveKind)
    (position : Nat) :
    mapMembers lib ctx place position (kinds.map (ofKind entries nullable)) =
      .ok (.pure (kinds.map (typeOfKind entries nullable))) := by
  induction kinds generalizing position with
  | nil => rw [List.map_nil, mapMembers, List.map_nil]
  | cons kind rest ih =>
    rw [List.map_cons, mapMembers, map_ofKind, ih]
    rfl

theorem map_ofKinds (location : String) (nullable listed : Bool) (hne : kinds ≠ []) :
    map lib ctx location (ofKinds entries nullable listed kinds) =
      .ok (.pure (typeOfKinds entries nullable listed kinds)) := by
  match kinds, hne with
  | [kind], _ => exact map_ofKind location _ kind
  | kind :: second :: rest, _ =>
    rw [ofKinds, map, mapMembers_ofKind]
    · rfl
    · intro _ hsingle
      cases hsingle

/-- A primitive type is no union, so it offers null only by having it added. -/
theorem offersNull_mapPrimitive (kind : PrimitiveKind) (format : Option String)
    (permitted : List Value) (nullable : Bool) :
    (mapPrimitive kind format permitted nullable).offersNull = nullable := by
  have hsame : (mapPrimitive kind format permitted nullable).offersNull =
      (mapPrimitive kind format permitted nullable).isNullable := by
    refine mapPrimitive_induction (P := fun type => type.offersNull = type.isNullable)
      rfl (fun _ => rfl) rfl (fun flag type h => ?_) kind format nullable
    cases flag with
    | false => exact h
    | true => rfl
  exact hsame.trans (isNullable_mapPrimitive kind format permitted nullable)

/-- The type for several kinds offers null exactly if the members of the composition may be null, or
if null is listed beside a single kind. -/
theorem offersNull_typeOfKinds (entries : Entries) (nullable listed : Bool) (hne : kinds ≠ []) :
    (typeOfKinds entries nullable listed kinds).offersNull = true ↔
      (listed = true ∧ kinds.length = 1) ∨ nullable = true ∨ permitsNull entries = true := by
  match kinds, hne with
  | [kind], _ =>
    rw [typeOfKinds, typeOfKind, offersNull_mapPrimitive, Bool.or_comm nullable, Bool.or_assoc,
      Bool.or_eq_true, Bool.or_eq_true]
    simp only [List.length_singleton, and_true]
  | kind :: second :: rest, _ =>
    have hmember : ∀ k, (typeOfKind entries nullable k).isNullable =
        (nullable || permitsNull entries) := fun k => isNullable_mapPrimitive k _ _ _
    have hlength : (kind :: second :: rest).length ≠ 1 := by simp
    rw [typeOfKinds, TypeExpr.offersNull, List.any_map]
    · simp only [Function.comp_def, hmember, List.any_cons, hlength, and_false, false_or]
      rw [← Bool.or_eq_true]
      cases nullable || permitsNull entries <;> simp
    · intro _ hsingle
      cases hsingle

/-! ## Both spellings of null -/

/-- The value is read as a schema, and that is mapped to the type. -/
def MapsTo (lib : Library) (ctx : Context) (location : String) (v : Value) (type : TypeExpr) :
    Prop :=
  ∃ schema mapped, Schema.ofValue v = .ok schema ∧ map lib ctx location schema = .ok mapped ∧
    mapped.result = type

/-- The schema object says by the flag `nullable` what another one says by listing null: its type
is the list of the other types, or the only one of them, and all its other keywords are the same. -/
structure SaysByFlag (entries : Entries) (kinds : List PrimitiveKind) (others : Entries) :
    Prop where
  type : ListsTypes others (kinds.map fun kind => .text kind.name) kinds ∨
    ∃ kind, kinds = [kind] ∧ Value.lookup? "type" others = some (.text kind.name)
  nullable : Value.lookup? "nullable" others = some (.bool true)
  same : ∀ key, key ≠ "type" → key ≠ "nullable" →
    Value.lookup? key others = Value.lookup? key entries

theorem SaysByFlag.isPlain {others : Entries} (h : SaysByFlag entries kinds others)
    (hplain : IsPlain entries) : IsPlain others where
  reference := by
    rw [Schema.gives, h.same _ (by decide) (by decide)]
    exact hplain.reference
  allOf := by
    rw [Schema.givesList, h.same _ (by decide) (by decide)]
    exact hplain.allOf
  oneOf := by
    rw [Schema.givesList, h.same _ (by decide) (by decide)]
    exact hplain.oneOf
  anyOf := by
    rw [Schema.givesList, h.same _ (by decide) (by decide)]
    exact hplain.anyOf

/-- What says null by the flag maps to a type that offers it. -/
theorem SaysByFlag.offersNull {others : Entries} (h : SaysByFlag entries kinds others)
    (hplain : IsPlain entries) (location : String) :
    ∃ type, MapsTo lib ctx location (.map others) type ∧ type.offersNull = true := by
  have hflag : flag (.map others) "nullable" = true := by
    rw [flag, Value.getD, Value.get?, h.nullable]
    rfl
  rcases h.type with hlists | ⟨kind, -, htype⟩
  · have hread := Schema.ofValue_of_listsTypes (h.isPlain hplain) hlists
    rw [hflag] at hread
    exact ⟨_, ⟨_, _, hread, map_ofKinds location _ _ hlists.nonempty, rfl⟩,
      (offersNull_typeOfKinds _ _ _ hlists.nonempty).mpr (Or.inr (Or.inl rfl))⟩
  · have hread := Schema.ofValue_of_type (h.isPlain hplain) htype
    rw [hflag] at hread
    exact ⟨_, ⟨_, _, hread, map_ofKind location _ kind, rfl⟩,
      offersNull_mapPrimitive kind _ _ true⟩

/-- A schema object that lists null and types of values without parts always maps to a type.  The
type offers null exactly if a single type is listed besides null, or if the flag `nullable` or the
permitted values say null as well.  With the flag in place of the listed null it always does. -/
theorem offersNull_iff_of_listsTypes (lib : Library) (ctx : Context) (location : String)
    (hplain : IsPlain entries) (hlists : ListsTypes entries types kinds)
    (hnull : types.any Schema.isNullWord = true) :
    (∃ type, MapsTo lib ctx location (.map entries) type ∧
      (type.offersNull = true ↔ kinds.length = 1 ∨ flag (.map entries) "nullable" = true ∨
        permitsNull entries = true)) ∧
    ∀ others, SaysByFlag entries kinds others →
      ∃ type, MapsTo lib ctx location (.map others) type ∧ type.offersNull = true := by
  refine ⟨?_, fun others h => h.offersNull hplain location⟩
  have hread := Schema.ofValue_of_listsTypes hplain hlists
  refine ⟨_, ⟨_, _, hread, map_ofKinds location _ _ hlists.nonempty, rfl⟩, ?_⟩
  refine (offersNull_typeOfKinds _ _ _ hlists.nonempty).trans ?_
  simp only [hnull, true_and]

/-- A schema object that lists texts, integers and null. -/
def textOrInteger : Entries :=
  [(.text "type", .list [.text "string", .text "integer", .text "null"])]

theorem isPlain_textOrInteger : IsPlain textOrInteger := ⟨rfl, rfl, rfl, rfl⟩

theorem listsTypes_textOrInteger : ListsTypes textOrInteger
    [.text "string", .text "integer", .text "null"] [.string, .integer] :=
  ⟨rfl, rfl, by decide⟩

/-- Texts and integers with the flag `nullable` map to a type that offers null. -/
theorem offersNull_flagged : ∃ others, SaysByFlag textOrInteger [.string, .integer] others ∧
    ∃ type, MapsTo ⟨[]⟩ { } "" (.map others) type ∧ type.offersNull = true := by
  obtain ⟨-, hflagged⟩ := offersNull_iff_of_listsTypes ⟨[]⟩ { } "" isPlain_textOrInteger
    listsTypes_textOrInteger rfl
  have hsays : SaysByFlag textOrInteger [.string, .integer]
      [(.text "type", .list [.text "string", .text "integer"]),
        (.text "nullable", .bool true)] := by
    refine ⟨Or.inl ⟨rfl, rfl, by decide⟩, rfl, fun key htype hnullable => ?_⟩
    simp only [Value.lookup?, textOrInteger, htype.symm, hnullable.symm, if_false]
  exact ⟨_, hsays, hflagged _ hsays⟩

/-- A schema object that lists null besides types of values without parts need not map to a type
that offers null. -/
theorem not_offersNull_listed :
    ¬ ∀ (lib : Library) (ctx : Context) (location : String) (entries : Entries)
      (types : List Value) (kinds : List PrimitiveKind), IsPlain entries →
      ListsTypes entries types kinds → types.any Schema.isNullWord = true →
        ∃ type, MapsTo lib ctx location (.map entries) type ∧ type.offersNull = true := by
  intro hclaim
  obtain ⟨type, ⟨schema, mapped, hread, hmap, rfl⟩, hoffers⟩ := hclaim ⟨[]⟩ { } "" _ _ _
    isPlain_textOrInteger listsTypes_textOrInteger rfl
  rw [Schema.ofValue_of_listsTypes isPlain_textOrInteger listsTypes_textOrInteger] at hread
  rw [← Except.ok.inj hread, map_ofKinds _ _ _ listsTypes_textOrInteger.nonempty] at hmap
  rw [← Except.ok.inj hmap] at hoffers
  exact absurd hoffers (by decide)

end Mapping

end TypedClient

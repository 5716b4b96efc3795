import TypedClient.Proofs.Mapping.Parts
import TypedClient.Proofs.TypeExpr.Blank

/-!
# Mapping is independent of its presentation switches

The qualifier, the wrapping of views and the marks of a context show in the type that mapping gives,
but change neither whether it succeeds, nor its references and notes, nor what is left of the type
when the presentation is taken away.

* `Context.plain`: a context without its presentation switches; its view stays.
* `Context.through`: a context with its presentation switches, seen through another view.
* `map_plain`: mapping in the plain context is mapping in the context with the result blanked.
* `map_of_view_eq`, `outcome_of_view_eq`: two contexts with one view give the same up to
  presentation, so that they fail alike and have the same references and notes.
-/

namespace TypedClient.Mapping

open TypeExpr (blank blankFields blankIndex blankMembers)

variable {lib : Library}

/-- The context without its presentation switches: only the view is left. -/
def Context.plain (ctx : Context) : Context := { view := ctx.view }

/-- The context, seen through another view or through none. -/
def Context.through (ctx : Context) (view : Option View) : Context := { ctx with view := view }

/-- What mapping gives, without presentation; a reference that leads nowhere stays what it is. -/
def blanked {α : Type} (f : α → α) (outcome : Except ResolutionError (Mapped α)) :
    Except ResolutionError (Mapped α) :=
  outcome.map (Mapped.map f)

theorem plain_drops (ctx : Context) (readOnly writeOnly : Bool) :
    ctx.plain.drops readOnly writeOnly = ctx.drops readOnly writeOnly := rfl

theorem blank_mapPrimitive (kind : PrimitiveKind) (format : Option String)
    (permitted : List Value) (nullable : Bool) :
    blank (mapPrimitive kind format permitted nullable) =
      mapPrimitive kind format permitted nullable := by
  refine mapPrimitive_induction (P := fun type => blank type = type)
    TypeExpr.blank_dateTime ?_ ?_ ?_ kind format nullable
  · exact fun type => by rw [blank]
  · rw [blank]
  · exact fun flag type h => by rw [TypeExpr.blank_orNull, h]

theorem map_blank_mapUntyped (reason : String) (nullable : Bool) (location : String) :
    (mapUntyped reason nullable location).map blank = mapUntyped reason nullable location := by
  rw [mapUntyped, Mapped.map, TypeExpr.blank_orNull, TypeExpr.blank_any]

theorem mapReference_plain (ctx : Context) (location target : String) (nullable : Bool) :
    mapReference lib ctx.plain location target nullable =
      blanked blank (mapReference lib ctx location target nullable) := by
  rw [mapReference, mapReference]
  rcases lib.resolve (.reference target nullable) (if location.isEmpty then none else some location)
    with error | concrete
  · rfl
  · change Except.ok _ = Except.ok _
    rw [Mapped.map, blank]
    rfl

theorem combine_blank (mode : Composition) (location : String)
    (members : Mapped (List TypeExpr)) :
    combine mode location (members.map blankMembers) =
      (combine mode location members).map blank := by
  obtain ⟨types, references, notes⟩ := members
  match types with
  | [] => exact (map_blank_mapUntyped _ _ _).symm
  | [type] => rfl
  | type :: other :: rest =>
    cases mode with
    | all =>
      change (⟨.product (blankMembers (type :: other :: rest)), references, notes⟩ :
        Mapped TypeExpr) = ⟨blank (.product (type :: other :: rest)), references, notes⟩
      rw [blank]
    | one =>
      change (⟨.sum (blankMembers (type :: other :: rest)), references, notes⟩ :
        Mapped TypeExpr) = ⟨blank (.sum (type :: other :: rest)), references, notes⟩
      rw [blank]

mutual

/-- Mapping in the plain context is mapping in the context with the result blanked. -/
theorem map_plain (ctx : Context) : ∀ (schema : Schema) (location : String),
    map lib ctx.plain location schema = blanked blank (map lib ctx location schema)
  | .reference target nullable, location => by
    rw [map, map]
    exact mapReference_plain ctx location target nullable
  | .composite mode members _, location => by
    rw [map, map, mapMembers_plain ctx members]
    rcases mapMembers lib ctx (location ++ "/" ++ keyword mode ++ "/") 0 members
      with error | mapped
    · rfl
    · change Except.ok _ = Except.ok _
      rw [combine_blank]
  | .array items _, location => by
    rw [map, map, map_plain ctx items]
    rcases map lib ctx (location ++ "/items") items with error | mapped
    · rfl
    · change Except.ok _ = Except.ok _
      rw [Mapped.map, Mapped.map, Mapped.map, Mapped.map, blank]
  | .object properties additional _, location => by
    rw [map, map, mapProperties_plain ctx properties, mapAdditional_plain ctx additional]
    rcases mapProperties lib ctx location properties with error | fields
    · rfl
    · rcases mapAdditional lib ctx location additional with error | index
      · rfl
      · change Except.ok _ = Except.ok _
        rw [Mapped.join, Mapped.join, Mapped.map, Mapped.map, Mapped.map, blank]
  | .primitive kind format permitted nullable, location => by
    rw [map, map]
    change Except.ok _ = Except.ok _
    rw [Mapped.pure, Mapped.map, blank_mapPrimitive]
  | .untyped reason nullable, location => by
    rw [map, map]
    change Except.ok _ = Except.ok _
    rw [map_blank_mapUntyped]

/-- `map_plain` for the members of a composition. -/
theorem mapMembers_plain (ctx : Context) : ∀ (schemas : List Schema) (place : String)
    (position : Nat), mapMembers lib ctx.plain place position schemas =
      blanked blankMembers (mapMembers lib ctx place position schemas)
  | [], place, position => by
    rw [mapMembers, mapMembers]
    rfl
  | schema :: rest, place, position => by
    rw [mapMembers, mapMembers, map_plain ctx schema, mapMembers_plain ctx rest]
    rcases map lib ctx (place ++ toString position) schema with error | first
    · rfl
    · rcases mapMembers lib ctx place (position + 1) rest with error | others
      · rfl
      · change Except.ok _ = Except.ok _
        rw [Mapped.join, Mapped.join, Mapped.map, Mapped.map, Mapped.map, blankMembers]

/-- `map_plain` for the properties of an object. -/
theorem mapProperties_plain (ctx : Context) :
    ∀ (properties : List (String × PropertyOf Schema)) (location : String),
    mapProperties lib ctx.plain location properties =
      blanked blankFields (mapProperties lib ctx location properties)
  | [], location => by
    rw [mapProperties, mapProperties]
    rfl
  | (name, ⟨schema, required, readOnly, writeOnly⟩) :: rest, location => by
    rw [mapProperties, mapProperties, plain_drops, map_plain ctx schema,
      mapProperties_plain ctx rest]
    cases ctx.drops readOnly writeOnly with
    | true => rfl
    | false =>
      rcases map lib ctx (location ++ "/properties/" ++ name) schema with error | type
      · rfl
      · rcases mapProperties lib ctx location rest with error | others
        · rfl
        · change Except.ok _ = Except.ok _
          rw [Mapped.join, Mapped.join, Mapped.map, Mapped.map, Mapped.map, blankFields]
          rfl

/-- `map_plain` for the properties an object does not name. -/
theorem mapAdditional_plain (ctx : Context) : ∀ (additional : AdditionalOf Schema)
    (location : String), mapAdditional lib ctx.plain location additional =
      blanked blankIndex (mapAdditional lib ctx location additional)
  | .schema s, location => by
    rw [mapAdditional, mapAdditional, map_plain ctx s]
    rcases map lib ctx (location ++ "/additionalProperties") s with error | mapped
    · rfl
    · change Except.ok _ = Except.ok _
      rw [Mapped.map, Mapped.map, Mapped.map, Mapped.map, blankIndex]
  | .unsaid, location => rfl
  | .permitted b, location => rfl

end

/-- Two contexts with one view give the same up to presentation. -/
theorem map_of_view_eq {ctx other : Context} (hview : ctx.view = other.view) (location : String)
    (schema : Schema) :
    blanked blank (map lib ctx location schema) =
      blanked blank (map lib other location schema) := by
  rw [← map_plain, ← map_plain, Context.plain, Context.plain, hview]

/-- Two contexts with one view fail alike, or give the same references and notes, and the same types
but for their presentation. -/
theorem outcome_of_view_eq {ctx other : Context} (hview : ctx.view = other.view)
    (location : String) (schema : Schema) :
    (∃ error, map lib ctx location schema = .error error ∧
      map lib other location schema = .error error) ∨
    ∃ m n, map lib ctx location schema = .ok m ∧ map lib other location schema = .ok n ∧
      m.references = n.references ∧ m.notes = n.notes ∧ blank m.result = blank n.result := by
  have heq : blanked blank (map lib ctx location schema) =
      blanked blank (map lib other location schema) := map_of_view_eq hview location schema
  rcases hmap : map lib ctx location schema with error | m <;>
    rcases hother : map lib other location schema with error' | n <;>
    rw [hmap, hother] at heq
  · obtain rfl := Except.error.inj heq
    exact Or.inl ⟨error, rfl, rfl⟩
  · cases heq
  · cases heq
  · have hblank : m.map blank = n.map blank := Except.ok.inj heq
    obtain ⟨htype, hrefs, hnotes⟩ := Mapped.mk.inj hblank
    exact Or.inr ⟨m, n, rfl, rfl, hrefs, hnotes, htype⟩

end TypedClient.Mapping

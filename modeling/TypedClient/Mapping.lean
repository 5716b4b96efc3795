import TypedClient.Library
import TypedClient.TypeExpr
import TypedClient.Problem

/-!
# The type of a schema

A schema is mapped to the type of the values it describes.  A reference becomes the name of the
schema it refers to, so the mapping follows the schema's own tree only and ends at every name.

* `Mapping.Context`: how names are qualified and which side the type is seen from.
* `Mapping.Mapped`: a type with the names it refers to and the notes raised on the way.
* `Mapping.map`: the type of a schema, or the first reference that leads nowhere.
-/

namespace TypedClient.Mapping

/-- How a schema is mapped.  A view drops the properties that belong to the other side only;
`wrapViews` sees referenced types through the view as well, and `markModifiers` tags the properties
of one direction. -/
structure Context where
  qualifier : String := ""
  view : Option View := none
  wrapViews : Bool := false
  markModifiers : Bool := false
deriving Repr, DecidableEq, Inhabited

/-- What mapping gives: a result, the type names it refers to, and the notes in order. -/
structure Mapped (α : Type) where
  result : α
  references : NameSet
  notes : List Diagnostic
deriving Repr, BEq, Inhabited

/-- A result that refers to nothing and needs no note. -/
def Mapped.pure {α : Type} (a : α) : Mapped α := ⟨a, [], []⟩

/-- Another result with the same references and notes. -/
def Mapped.map {α β : Type} (f : α → β) (m : Mapped α) : Mapped β :=
  ⟨f m.result, m.references, m.notes⟩

/-- Two results joined, with the references and notes of both. -/
def Mapped.join {α β γ : Type} (f : α → β → γ) (m : Mapped α) (n : Mapped β) : Mapped γ :=
  ⟨f m.result n.result, NameSet.union m.references n.references, m.notes ++ n.notes⟩

/-- The note on a schema that has no type. -/
def unsupported (reason location : String) : Diagnostic where
  severity := .warning
  code := "unsupported-schema-shape"
  message := "Unsupported schema shape (" ++ reason ++ "); mapped to any"
  location := location

/-- The type of a schema without a shape; a reason is noted. -/
def mapUntyped (reason : String) (nullable : Bool) (location : String) : Mapped TypeExpr :=
  ⟨.orNull nullable .any, [], if reason.isEmpty then [] else [unsupported reason location]⟩

/-- Is the text one of the formats of days and moments? -/
def isDateFormat (format : Option String) : Bool :=
  format == some "date" || format == some "date-time"

/-- The type of a primitive schema: permitted values give a set of literals, except that a text in
a date format is a `DateTime` whatever values it permits. -/
def mapPrimitive (kind : PrimitiveKind) (format : Option String) (permitted : List Value)
    (nullable : Bool) : TypeExpr :=
  let literalsOr (type : PrimitiveType) : TypeExpr :=
    if permitted.isEmpty then .primitive type else .literals permitted
  .orNull nullable <|
    match kind with
    | .boolean => literalsOr .boolean
    | .integer => literalsOr .integer
    | .number => literalsOr .number
    | .string => if isDateFormat format then .dateTime else literalsOr .string

/-- The view through which a reference is seen: enumerations have no sides. -/
def Context.viewOf (ctx : Context) (target : Schema) : Option View :=
  if ctx.wrapViews && !target.isEnumeration then ctx.view else none

/-- The type of a reference: the name of the schema it refers to. -/
def mapReference (lib : Library) (ctx : Context) (location target : String) (nullable : Bool) :
    Except ResolutionError (Mapped TypeExpr) := do
  let place := if location.isEmpty then none else some location
  let concrete ← lib.resolve (.reference target nullable) place
  let name := lib.typeName target
  return ⟨.named name ctx.qualifier (ctx.viewOf concrete) false, [name], []⟩

/-- Does the view drop a property with these flags? -/
def Context.drops (ctx : Context) (readOnly writeOnly : Bool) : Bool :=
  match ctx.view with
  | some .input => readOnly
  | some .output => writeOnly
  | none => false

/-- The keyword by which a composition is written. -/
def keyword : Composition → String
  | .all => "allOf"
  | .one => "oneOf"

/-- The type of a composition: its only member, or the members combined. -/
def combine (mode : Composition) (location : String) (members : Mapped (List TypeExpr)) :
    Mapped TypeExpr :=
  match members.result with
  | [] => mapUntyped ("empty " ++ keyword mode) false location
  | [type] => members.map fun _ => type
  | types => members.map fun _ => match mode with
    | .all => .product types
    | .one => .sum types

mutual

/-- The type of a schema that stands at a location. -/
def map (lib : Library) (ctx : Context) (location : String) :
    Schema → Except ResolutionError (Mapped TypeExpr)
  | .reference target nullable => mapReference lib ctx location target nullable
  | .composite mode members _ => do
    let mapped ← mapMembers lib ctx (location ++ "/" ++ keyword mode ++ "/") 0 members
    return combine mode location mapped
  | .array items _ => do
    let mapped ← map lib ctx (location ++ "/items") items
    return mapped.map .array
  | .object properties additional _ => do
    let fields ← mapProperties lib ctx location properties
    let index ← mapAdditional lib ctx location additional
    return fields.join .object index
  | .primitive kind format permitted nullable =>
    .ok (.pure (mapPrimitive kind format permitted nullable))
  | .untyped reason nullable => .ok (mapUntyped reason nullable location)

/-- The types of the members of a composition; `place` is their common location, to which the
position of each is added. -/
def mapMembers (lib : Library) (ctx : Context) (place : String) (position : Nat) :
    List Schema → Except ResolutionError (Mapped (List TypeExpr))
  | [] => .ok (.pure [])
  | schema :: rest => do
    let first ← map lib ctx (place ++ toString position) schema
    let others ← mapMembers lib ctx place (position + 1) rest
    return first.join List.cons others

/-- The properties of an object type: those that the view keeps, in order. -/
def mapProperties (lib : Library) (ctx : Context) (location : String) :
    List (String × PropertyOf Schema) →
      Except ResolutionError (Mapped (List (String × FieldOf TypeExpr)))
  | [] => .ok (.pure [])
  | (name, ⟨schema, required, readOnly, writeOnly⟩) :: rest => do
    if ctx.drops readOnly writeOnly then mapProperties lib ctx location rest
    else
      let type ← map lib ctx (location ++ "/properties/" ++ name) schema
      let others ← mapProperties lib ctx location rest
      let field (t : TypeExpr) : FieldOf TypeExpr :=
        ⟨t, !required, readOnly, writeOnly, ctx.markModifiers && (readOnly || writeOnly)⟩
      return type.join (fun t fields => (name, field t) :: fields) others

/-- The index signature of an object type: only a schema for further properties gives one. -/
def mapAdditional (lib : Library) (ctx : Context) (location : String) :
    AdditionalOf Schema → Except ResolutionError (Mapped (Option TypeExpr))
  | .schema s => do
    let mapped ← map lib ctx (location ++ "/additionalProperties") s
    return mapped.map some
  | _ => .ok (.pure none)

end

end TypedClient.Mapping

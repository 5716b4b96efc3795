import TypedClient.Named
import TypedClient.Value

/-!
# Schemas

The shape that a document describes for a value.  A reference carries the name of the schema it
stands for and is never replaced by it, so schemas that refer to themselves stay finite.

* `Schema`: the shapes.
* `PropertyOf`, `AdditionalOf`: what an object schema says of one property and of the properties it
  does not name.
* `Schema.isEnumeration`: a primitive schema with a list of permitted values.
* `Schema.shapeName`: a short word for the shape.
-/

namespace TypedClient

/-- The types of values without parts. -/
inductive PrimitiveKind where
  | string
  | number
  | integer
  | boolean
deriving Repr, DecidableEq, Inhabited

/-- The word for a primitive type. -/
def PrimitiveKind.name : PrimitiveKind → String
  | .string => "string"
  | .number => "number"
  | .integer => "integer"
  | .boolean => "boolean"

/-- How a schema is composed of others: a value fits all of them, or one of them. -/
inductive Composition where
  | all
  | one
deriving Repr, DecidableEq, Inhabited

/-- The word for a composition. -/
def Composition.name : Composition → String
  | .all => "all-of"
  | .one => "one-of"

/-- What an object schema says of one property. -/
structure PropertyOf (S : Type) where
  schema : S
  required : Bool
  readOnly : Bool
  writeOnly : Bool
deriving Repr, BEq, Inhabited

/-- What an object schema says of the properties it does not name. -/
inductive AdditionalOf (S : Type) where
  | unsaid
  | permitted (b : Bool)
  | schema (s : S)
deriving Repr, BEq, Inhabited

/-- The shape of a value.  An empty list of permitted values permits all values of the type. -/
inductive Schema where
  | reference (target : String) (nullable : Bool)
  | composite (mode : Composition) (members : List Schema) (nullable : Bool)
  | array (items : Schema) (nullable : Bool)
  | object (properties : List (String × PropertyOf Schema)) (additional : AdditionalOf Schema)
      (nullable : Bool)
  | primitive (kind : PrimitiveKind) (format : Option String) (permitted : List Value)
      (nullable : Bool)
  | untyped (reason : String) (nullable : Bool)
deriving Repr, BEq, Inhabited

namespace Schema

/-- Is the schema a primitive one with a list of permitted values? -/
def isEnumeration : Schema → Bool
  | .primitive _ _ permitted _ => !permitted.isEmpty
  | _ => false

/-- A short word for the shape. -/
def shapeName : Schema → String
  | .primitive kind _ permitted _ =>
    if permitted.isEmpty then kind.name else "enum<" ++ kind.name ++ ">"
  | .reference target _ => "-> " ++ target
  | .composite mode _ _ => mode.name
  | .array _ _ => "array"
  | .object _ _ _ => "object"
  | .untyped _ _ => "untyped"

mutual

/-- Does an object property anywhere in the schema's own tree belong to one direction only? -/
def hasModifier : Schema → Bool
  | .object properties additional _ =>
    propertiesHaveModifier properties || additionalHasModifier additional
  | .array items _ => items.hasModifier
  | .composite _ members _ => membersHaveModifier members
  | _ => false

/-- `hasModifier` for the properties of an object. -/
def propertiesHaveModifier : List (String × PropertyOf Schema) → Bool
  | [] => false
  | (_, ⟨schema, _, readOnly, writeOnly⟩) :: rest =>
    readOnly || writeOnly || schema.hasModifier || propertiesHaveModifier rest

/-- `hasModifier` for the properties an object does not name. -/
def additionalHasModifier : AdditionalOf Schema → Bool
  | .schema s => s.hasModifier
  | _ => false

/-- `hasModifier` for the members of a composition. -/
def membersHaveModifier : List Schema → Bool
  | [] => false
  | s :: rest => s.hasModifier || membersHaveModifier rest

end

end Schema

end TypedClient

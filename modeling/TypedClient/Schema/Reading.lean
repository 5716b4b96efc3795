import TypedClient.Schema
import TypedClient.Pointer
import TypedClient.Value.Display

/-!
# Reading schemas

A schema object says by its keywords which shape it describes.  The keywords are tried in a fixed
order: a reference, a composition, an array, an object, a primitive type; what is left over is
untyped, with the reason.  A list of types permits each of them, and the word `null` in it permits
null.

* `Misfit`: a value that does not fit the place where it stands.
* `Schema.ofValue`: the schema that a value describes.
-/

namespace TypedClient

/-- A value that does not fit the place where it stands: one that cannot be looked up among others,
one that is no text, one without elements. -/
inductive Misfit where
  | notKey
  | notText
  | notIterable
deriving Repr, DecidableEq, Inhabited

namespace Value

/-- Is the value one of these words?  Values that can be no keys cannot be looked up; a set is
merely none of the words. -/
def isOneOf (words : List String) : Value → Except Misfit Bool
  | .text s => .ok (words.contains s)
  | .set _ => .ok false
  | v => if v.isKey then .ok false else .error .notKey

/-- The value is looked up among others, which takes a key. -/
def requireKey (v : Value) : Except Misfit Unit :=
  if v.isKey then .ok () else .error .notKey

/-! ## Size -/

mutual

/-- The number of values that a value is made of, with one more for each place in a container. -/
def size : Value → Nat
  | .list items => 1 + sizeItems items
  | .map entries => 1 + sizeEntries entries
  | _ => 1

/-- The size of the elements of a list. -/
def sizeItems : List Value → Nat
  | [] => 0
  | v :: rest => 1 + v.size + sizeItems rest

/-- The size of the entries of a map. -/
def sizeEntries : List (Value × Value) → Nat
  | [] => 0
  | (_, v) :: rest => 1 + v.size + sizeEntries rest

end

/-- What stands under a key is smaller than the map. -/
theorem size_lt_of_lookup? {key : String} {entries : Entries} {v : Value}
    (h : lookup? key entries = some v) : v.size < sizeEntries entries := by
  induction entries with
  | nil => simp [lookup?] at h
  | cons entry rest ih =>
    obtain ⟨k, w⟩ := entry
    simp only [lookup?] at h
    simp only [sizeEntries]
    split at h
    · split at h
      · obtain rfl := Option.some.inj h
        omega
      · have := ih h
        omega
    · have := ih h
      omega

/-- The elements of a list under a key are smaller than the map. -/
theorem sizeItems_lt_of_lookup? {key : String} {entries : Entries} {items : List Value}
    (h : lookup? key entries = some (.list items)) : sizeItems items < sizeEntries entries := by
  have := size_lt_of_lookup? h
  simp only [size] at this
  omega

/-- The entries of a map under a key are smaller than the outer map. -/
theorem sizeEntries_lt_of_lookup? {key : String} {entries inner : Entries}
    (h : lookup? key entries = some (.map inner)) : sizeEntries inner < sizeEntries entries := by
  have := size_lt_of_lookup? h
  simp only [size] at this
  omega

/-- The elements of the list under a text key, none if there is no list. -/
def itemsUnder (entries : Entries) (key : String) : List Value :=
  match lookup? key entries with
  | some (.list items) => items
  | _ => []

/-- The entries of the map under a text key, none if there is no map. -/
def entriesUnder (entries : Entries) (key : String) : Entries :=
  match lookup? key entries with
  | some (.map inner) => inner
  | _ => []

theorem sizeItems_itemsUnder_le (entries : Entries) (key : String) :
    sizeItems (itemsUnder entries key) ≤ sizeEntries entries := by
  unfold itemsUnder
  split
  · rename_i items h
    exact Nat.le_of_lt (sizeItems_lt_of_lookup? h)
  · exact Nat.zero_le _

theorem sizeEntries_entriesUnder_le (entries : Entries) (key : String) :
    sizeEntries (entriesUnder entries key) ≤ sizeEntries entries := by
  unfold entriesUnder
  split
  · rename_i inner h
    exact Nat.le_of_lt (sizeEntries_lt_of_lookup? h)
  · exact Nat.zero_le _

end Value

namespace Schema

/-! ## Types -/

/-- Is the value the word `null`, which in a list of types permits null? -/
def isNullWord (v : Value) : Bool :=
  v.isWord "null"

mutual

/-- The schema of an object whose type keyword has the given value, when `shape` gives the schema
for a single type.  In a list, the word `null` permits null; several other types each give a member
of a composition, a single one is the type. -/
def byType (shape : (nullable : Bool) → (type : Value) → Except Misfit Schema)
    (nullable : Bool) : Value → Except Misfit Schema
  | .list types =>
    let nullable' := nullable || types.any isNullWord
    match types.filter fun t => !isNullWord t with
    | [] => shape nullable' .null
    | [t] => shape nullable' t
    | _ => do return .composite .one (← byTypes shape nullable types) nullable'
  | type => shape nullable type

/-- A schema for each type of a list, except for the word `null`. -/
def byTypes (shape : (nullable : Bool) → (type : Value) → Except Misfit Schema)
    (nullable : Bool) : List Value → Except Misfit (List Schema)
  | [] => .ok []
  | t :: rest => do
    if isNullWord t then byTypes shape nullable rest
    else
      let s ← byType shape nullable t
      return s :: (← byTypes shape nullable rest)

end

/-- The words for the primitive types. -/
def primitiveKind? (word : String) : Option PrimitiveKind :=
  if word = "string" then some .string
  else if word = "number" then some .number
  else if word = "integer" then some .integer
  else if word = "boolean" then some .boolean
  else none

/-- The formats of days and moments. -/
def dateFormats : List String := ["date", "date-time"]

/-- The type of the values that start with a given value. -/
def typeOfExample : Value → Value
  | .bool _ => .text "boolean"
  | .int _ => .text "integer"
  | .float _ => .text "number"
  | .text _ => .text "string"
  | _ => .null

/-- Why a schema object without a known type has no shape. -/
def untypedReason (entries : Entries) (type : Value) : String :=
  if !type.isNull then "unsupported type '" ++ type.display ++ "'"
  else if (Value.lookup? "not" entries).isSome then "'not' schemas are not supported"
  else if (Value.lookup? "const" entries).isSome then "'const' without a type"
  else ""

/-- The values that an enumeration permits; null is permitted by other means. -/
def permittedValues (entries : Entries) : List Value :=
  (Value.itemsUnder entries "enum").filter fun v => !v.isNull

/-- The type of a schema object, a missing one being settled by the permitted values. -/
def settledType (entries : Entries) (type : Value) : Value :=
  match type, permittedValues entries with
  | .null, first :: _ => typeOfExample first
  | _, _ => type

/-- The type, one that is still missing being settled by a date format. -/
def datedType (format type : Value) : Except Misfit Value :=
  if type.isNull then do
    let isDate ← format.isOneOf dateFormats
    return if isDate then .text "string" else type
  else .ok type

/-- The schema of a value without parts and of a type. -/
def ofType (entries : Entries) (nullable : Bool) (type : Value) : Schema :=
  let format := (Value.lookup? "format" entries).getD .null
  match type with
  | .text word =>
    match primitiveKind? word with
    | some kind =>
      .primitive kind (if format.isNull then none else some format.display)
        (permittedValues entries) nullable
    | none => .untyped (untypedReason entries type) nullable
  | _ => .untyped (untypedReason entries type) nullable

/-- The schema of a value without parts: its permitted values settle a missing type, and so does a
date format. -/
def primitiveOrUntyped (entries : Entries) (nullable : Bool) (type : Value) :
    Except Misfit Schema := do
  let format := (Value.lookup? "format" entries).getD .null
  let type ← datedType format (settledType entries type)
  let _ ← type.isOneOf []
  return ofType entries (nullable || (Value.itemsUnder entries "enum").any Value.isNull) type

/-- The values that the keyword `required` lists; each has to be a key. -/
def requiredKeys (entries : Entries) : Except Misfit (List Value) := do
  let keys := Value.itemsUnder entries "required"
  keys.forM Value.requireKey
  return keys

/-- The flags that a property's own schema object sets. -/
def flag (v : Value) (keyword : String) : Bool :=
  (v.getD keyword).isTrue

/-- Which shape the keywords of a schema object announce, tried in this order. -/
inductive Announced where
  | reference
  | composition (mode : Composition) (keyword : String)
  | array
  | object
  | other
deriving Repr, DecidableEq

/-- Is a list given under the keyword? -/
def givesList (entries : Entries) (keyword : String) : Bool :=
  match Value.lookup? keyword entries with
  | some (.list _) => true
  | _ => false

/-- Is the keyword given at all? -/
def gives (entries : Entries) (keyword : String) : Bool :=
  (Value.lookup? keyword entries).isSome

/-- The shape that the keywords of a schema object announce for one type.  Without a type, an array
is announced by its items and an object by its properties. -/
def announced (entries : Entries) (type : Value) : Announced :=
  if gives entries "$ref" then .reference
  else if givesList entries "allOf" then .composition .all "allOf"
  else if givesList entries "oneOf" then .composition .one "oneOf"
  else if givesList entries "anyOf" then .composition .one "anyOf"
  else if type.isWord "array" || (type.isNull && gives entries "items") then .array
  else if type.isWord "object" ||
      (type.isNull && (gives entries "properties" || gives entries "additionalProperties")) then
    .object
  else .other

/-- The name that a reference keyword's value refers to: the schema's name, or the whole text if it
is no reference to a named schema. -/
def referenceTarget (v : Value) : String :=
  (Pointer.schemaName? v.display).getD v.display

mutual

/-- The schema that a value describes. -/
def ofValue (v : Value) : Except Misfit Schema :=
  match v with
  | .map entries =>
    let shape (nullable : Bool) (type : Value) : Except Misfit Schema :=
      match announced entries type with
      | .reference =>
        .ok (.reference (referenceTarget ((Value.lookup? "$ref" entries).getD .null)) nullable)
      | .composition mode keyword => do
        return .composite mode (← ofItems (Value.itemsUnder entries keyword)) nullable
      | .array =>
        match _h : Value.lookup? "items" entries with
        | some items => do return .array (← ofValue items) nullable
        | none => .ok (.array (.untyped "" false) nullable)
      | .object => do
        let required ← requiredKeys entries
        let properties ← ofProperties required (Value.entriesUnder entries "properties") []
        let additional ← match _h : Value.lookup? "additionalProperties" entries with
          | some v => ofAdditional v
          | none => .ok .unsaid
        return .object properties additional nullable
      | .other => primitiveOrUntyped entries nullable type
    byType shape (Value.getD (.map entries) "nullable").isTrue (Value.getD (.map entries) "type")
  | v => .ok (.untyped ("expected an object, got " ++ v.kindName) false)
termination_by 2 * v.size
decreasing_by
  · have := Value.sizeItems_itemsUnder_le entries keyword
    simp only [Value.size]
    omega
  · have := Value.size_lt_of_lookup? _h
    simp only [Value.size]
    omega
  · have := Value.sizeEntries_entriesUnder_le entries "properties"
    simp only [Value.size]
    omega
  · have := Value.size_lt_of_lookup? _h
    simp only [Value.size]
    omega

/-- What a value says of the properties that an object does not name. -/
def ofAdditional (v : Value) : Except Misfit (AdditionalOf Schema) :=
  match v with
  | .null => .ok .unsaid
  | .bool b => .ok (.permitted b)
  | v => do return .schema (← ofValue v)
termination_by 2 * v.size + 1

/-- The schemas that the elements of a list describe. -/
def ofItems (items : List Value) : Except Misfit (List Schema) :=
  match items with
  | [] => .ok []
  | v :: rest => do
    let s ← ofValue v
    return s :: (← ofItems rest)
termination_by 2 * Value.sizeItems items
decreasing_by all_goals simp only [Value.sizeItems]; omega

/-- The properties that the entries of a map describe, behind those already found.  A property is
required if its key is among the required ones. -/
def ofProperties (required : List Value) (entries : Entries) (found : Named (PropertyOf Schema)) :
    Except Misfit (Named (PropertyOf Schema)) :=
  match entries with
  | [] => .ok found
  | (key, v) :: rest => do
    let s ← ofValue v
    let property : PropertyOf Schema :=
      ⟨s, required.any (·.sameKey key), flag v "readOnly", flag v "writeOnly"⟩
    ofProperties required rest (Named.put key.display property found)
termination_by 2 * Value.sizeEntries entries
decreasing_by all_goals simp only [Value.sizeEntries]; omega

end

end Schema

end TypedClient

import TypedClient.TypeExpr
import TypedClient.Schema.Reading
import TypedClient.Value.Flag

/-!
# Type expressions given as data

A type expression can be given as a map whose entry `kind` says which form it has; the other
entries are its parts, and parts with a usual value may be left out.

* `TypeExpr.ofValue?`: the expression that a value gives.
-/

namespace TypedClient.TypeExpr

/-- The primitive type with a name. -/
def primitiveOfName? (s : String) : Option PrimitiveType :=
  [PrimitiveType.string, .number, .integer, .boolean, .any, .unknown, .void].find? fun type =>
    type.name == s

/-- The view under the key `view`, or none. -/
def viewAt? (v : Value) : Option (Option View) :=
  match v.getD "view" with
  | .null => some none
  | .text "input" => some (some .input)
  | .text "output" => some (some .output)
  | _ => none

mutual

/-- The expression that a value gives. -/
def ofValue? (v : Value) : Option TypeExpr :=
  match v with
  | .map entries =>
    match Value.lookup? "kind" entries with
    | some (.text kind) =>
      if kind = "named" then do
        let name ← Value.requiredTextAt? (.map entries) "name"
        let qualifier ← Value.textAt? (.map entries) "prefix" ""
        let view ← viewAt? (.map entries)
        let isBuiltin ← Value.flagAt? (.map entries) "builtin" false
        return .named name qualifier view isBuiltin
      else if kind = "array" then
        match _h : Value.lookup? "items" entries with
        | some items => do return .array (← ofValue? items)
        | none => none
      else if kind = "sum" then
        match _h : Value.lookup? "members" entries with
        | some (.list items) => do return .sum (← ofItems? items)
        | _ => none
      else if kind = "product" then
        match _h : Value.lookup? "members" entries with
        | some (.list items) => do return .product (← ofItems? items)
        | _ => none
      else if kind = "literal-set" then
        match Value.lookup? "values" entries with
        | some (.list values) => some (.literals values)
        | _ => none
      else if kind = "primitive" then do
        let name ← Value.requiredTextAt? (.map entries) "primitive"
        let type ← primitiveOfName? name
        return .primitive type
      else if kind = "nullable" then
        match _h : Value.lookup? "inner" entries with
        | some inner => do return .nullable (← ofValue? inner)
        | none => none
      else if kind = "object" then do
        let fields ← match _h : Value.lookup? "properties" entries with
          | some (.map inner) => ofFields? inner []
          | some _ => none
          | none => some []
        let index ← match _h : Value.lookup? "index_signature" entries with
          | some .null => some none
          | some other => do pure (some (← ofValue? other))
          | none => some none
        return .object fields index
      else none
    | _ => none
  | _ => none
termination_by v.size
decreasing_by
  · have := Value.size_lt_of_lookup? _h
    simp only [Value.size]
    omega
  · have := Value.sizeItems_lt_of_lookup? _h
    simp only [Value.size]
    omega
  · have := Value.sizeItems_lt_of_lookup? _h
    simp only [Value.size]
    omega
  · have := Value.size_lt_of_lookup? _h
    simp only [Value.size]
    omega
  · have := Value.size_lt_of_lookup? _h
    simp only [Value.size]
    omega
  · have := Value.sizeEntries_lt_of_lookup? _h
    simp only [Value.size]
    omega

/-- The expressions that the elements of a list give. -/
def ofItems? (items : List Value) : Option (List TypeExpr) :=
  match items with
  | [] => some []
  | v :: rest => do
    let type ← ofValue? v
    return type :: (← ofItems? rest)
termination_by Value.sizeItems items
decreasing_by all_goals simp only [Value.sizeItems]; omega

/-- The properties that the entries of a map give, behind those already found. -/
def ofFields? (entries : Entries) (found : Named (FieldOf TypeExpr)) :
    Option (Named (FieldOf TypeExpr)) :=
  match entries with
  | [] => some found
  | (key, v) :: rest => do
    let name ← key.text?
    let field ← ofField? v
    ofFields? rest (found.put name field)
termination_by Value.sizeEntries entries
decreasing_by all_goals simp only [Value.sizeEntries]; omega

/-- The property that a value gives. -/
def ofField? (v : Value) : Option (FieldOf TypeExpr) :=
  match v with
  | .map entries =>
    match _h : Value.lookup? "type" entries with
    | some type => do
      let isOptional ← Value.flagAt? (.map entries) "optional" false
      let isReadOnly ← Value.flagAt? (.map entries) "readonly" false
      let isWriteOnly ← Value.flagAt? (.map entries) "writeonly" false
      let isMarked ← Value.flagAt? (.map entries) "marked" false
      return ⟨← ofValue? type, isOptional, isReadOnly, isWriteOnly, isMarked⟩
    | none => none
  | _ => none
termination_by v.size
decreasing_by
  have := Value.size_lt_of_lookup? _h
  simp only [Value.size]
  omega

end

end TypedClient.TypeExpr

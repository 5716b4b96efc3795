import TypedClient.Source.Literal
import TypedClient.TypeExpr

/-!
# The text of a type expression

Array brackets bind tighter than `&`, and `&` tighter than `|`; where a part would be read wrongly
it is put in parentheses.  An object type spreads over several lines, two blanks deeper than the
line on which it starts.

* `Source.typeText`: the text of a type that starts on a line of a given depth.
-/

namespace TypedClient.Source

/-- The blanks at the start of a line of a given depth. -/
def margin (depth : Nat) : String :=
  String.ofList (List.replicate (2 * depth) ' ')

/-- The spelling of a primitive type. -/
def primitiveText : PrimitiveType → String
  | .integer => "number"
  | type => type.name

/-- The spelling of a builtin name. -/
def builtinText (name : String) : String :=
  if name = "DateTime" then "Date" else name

/-- The spelling of a name, seen through a view if there is one. -/
def namedText (name qualifier : String) (view : Option View) (isBuiltin : Bool) : String :=
  let plain := if isBuiltin then builtinText name else qualifier ++ name
  match view with
  | none => plain
  | some v => qualifier ++ v.projection ++ "<" ++ plain ++ ">"

/-- Would `&` or `[]` behind the type bind to a part of it only? -/
def needsGroup : TypeExpr → Bool
  | .sum _ => true
  | .product _ => true
  | .nullable _ => true
  | .literals values => decide (1 < values.length)
  | _ => false

/-- The text of a type in parentheses where it needs them. -/
def grouped (type : TypeExpr) (text : String) : String :=
  if needsGroup type then "(" ++ text ++ ")" else text

/-- The name of a property with its modifiers. -/
def fieldKey (name : String) (isReadOnly isOptional : Bool) : String :=
  (if isReadOnly then "readonly " else "") ++ quote name ++ (if isOptional then "?" else "")

/-- The text of a property's type with the tags for the projections. -/
def taggedText (isReadOnly isWriteOnly isMarked : Bool) (text : String) : String :=
  if isMarked && (isReadOnly || isWriteOnly) then
    "(" ++ text ++ ")" ++ (if isReadOnly then " & readonlyP" else "") ++
      (if isWriteOnly then " & writeonlyP" else "")
  else text

mutual

/-- The text of a type that starts on a line of the given depth. -/
def typeText (depth : Nat) : TypeExpr → String
  | .named name qualifier view isBuiltin => namedText name qualifier view isBuiltin
  | .primitive type => primitiveText type
  | .literals values => Text.joinWith " | " (values.map literal)
  | .nullable inner => typeText depth inner ++ " | null"
  | .array items => grouped items (typeText depth items) ++ "[]"
  | .sum members => Text.joinWith " | " (memberTexts depth members)
  | .product members => Text.joinWith " & " (groupedTexts depth members)
  | .object fields index =>
    if fields.isEmpty && index.isNone then "\x7b\x7d"
    else Text.joinWith "\n"
      ("\x7b" :: (fieldLines depth fields ++ (indexLines depth index ++ [margin depth ++ "\x7d"])))

/-- The texts of the members of a sum. -/
def memberTexts (depth : Nat) : List TypeExpr → List String
  | [] => []
  | type :: rest => typeText depth type :: memberTexts depth rest

/-- The texts of the members of a product. -/
def groupedTexts (depth : Nat) : List TypeExpr → List String
  | [] => []
  | type :: rest => grouped type (typeText depth type) :: groupedTexts depth rest

/-- The lines of the properties of an object type. -/
def fieldLines (depth : Nat) : List (String × FieldOf TypeExpr) → List String
  | [] => []
  | (name, ⟨type, isOptional, isReadOnly, isWriteOnly, isMarked⟩) :: rest =>
    (margin (depth + 1) ++ fieldKey name isReadOnly isOptional ++ ": " ++
      taggedText isReadOnly isWriteOnly isMarked (typeText (depth + 1) type) ++ ";") ::
      fieldLines depth rest

/-- The line of the index signature of an object type, if it has one. -/
def indexLines (depth : Nat) : Option TypeExpr → List String
  | none => []
  | some type => [margin (depth + 1) ++ "[key: string]: " ++ typeText (depth + 1) type ++ ";"]

end

end TypedClient.Source

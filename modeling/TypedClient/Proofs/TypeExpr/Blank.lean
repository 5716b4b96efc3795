import TypedClient.TypeExpr

/-!
# Type expressions without their presentation

The qualifier and the view of a name and the mark of a property say how a type is presented, not
what it is.  Blanking takes them away.

* `TypeExpr.blank`: an expression without qualifiers, views and marks.
* `TypeExpr.blankFields`, `TypeExpr.blankIndex`, `TypeExpr.blankMembers`: the same for the parts.
-/

namespace TypedClient.TypeExpr

mutual

/-- The expression without qualifiers, views and marks. -/
def blank : TypeExpr → TypeExpr
  | .named name _ _ builtin => .named name "" none builtin
  | .array items => .array items.blank
  | .object fields index => .object (blankFields fields) (blankIndex index)
  | .sum members => .sum (blankMembers members)
  | .product members => .product (blankMembers members)
  | .literals values => .literals values
  | .primitive type => .primitive type
  | .nullable inner => .nullable inner.blank

/-- The properties of an object type without qualifiers, views and marks. -/
def blankFields : List (String × FieldOf TypeExpr) → List (String × FieldOf TypeExpr)
  | [] => []
  | (name, ⟨type, isOptional, isReadOnly, isWriteOnly, _⟩) :: rest =>
    (name, ⟨type.blank, isOptional, isReadOnly, isWriteOnly, false⟩) :: blankFields rest

/-- An index signature without qualifiers, views and marks. -/
def blankIndex : Option TypeExpr → Option TypeExpr
  | none => none
  | some type => some type.blank

/-- A list of types without qualifiers, views and marks. -/
def blankMembers : List TypeExpr → List TypeExpr
  | [] => []
  | type :: rest => type.blank :: blankMembers rest

end

theorem blank_any : blank .any = .any := rfl

theorem blank_dateTime : blank .dateTime = .dateTime := rfl

theorem blank_orNull (flag : Bool) (type : TypeExpr) :
    blank (orNull flag type) = orNull flag type.blank := by
  cases flag with
  | false => rfl
  | true =>
    change blank (.nullable type) = .nullable type.blank
    rw [blank]

end TypedClient.TypeExpr

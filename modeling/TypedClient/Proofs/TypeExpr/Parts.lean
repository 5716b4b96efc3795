import Mathlib.Data.Nat.Notation
import TypedClient.TypeExpr

/-!
# The parts of a type expression

A type expression stands in itself, and in every expression that has it as a member, a property, an
index signature or an inner type.  What a generated file says of types anywhere in it is said of the
parts of the types that it declares.

* `TypeExpr.Within`: an expression stands in another one, at any depth.
* `TypeExpr.Nested`: it does so inside a number of object types.  These alone are written on lines of
  their own, so this number tells how deep it stands on the page.
* `TypeExpr.RefersTo`: the name of a schema does.
* `TypeExpr.viewNames_subset_of_within`: a part brings no projections of its own.
* `TypeExpr.projection_mem_viewNames`: the projection of every view that occurs is collected.
* `TypeExpr.exists_view_of_mem_viewNames`: nothing else is.
-/

namespace TypedClient.TypeExpr

/-- The expression `t` stands in another one: it is that expression, or a part of it at any
depth. -/
inductive Within (t : TypeExpr) : TypeExpr → Prop
  | refl : Within t t
  | array {items : TypeExpr} (h : Within t items) : Within t (.array items)
  | field {fields : List (String × FieldOf TypeExpr)} {index : Option TypeExpr}
      {f : String × FieldOf TypeExpr} (hf : f ∈ fields) (h : Within t f.2.type) :
      Within t (.object fields index)
  | index {fields : List (String × FieldOf TypeExpr)} {type : TypeExpr} (h : Within t type) :
      Within t (.object fields (some type))
  | sum {members : List TypeExpr} {m : TypeExpr} (hm : m ∈ members) (h : Within t m) :
      Within t (.sum members)
  | product {members : List TypeExpr} {m : TypeExpr} (hm : m ∈ members) (h : Within t m) :
      Within t (.product members)
  | nullable {inner : TypeExpr} (h : Within t inner) : Within t (.nullable inner)

/-- The expression `t` stands in another one, inside as many object types of it as the number
says. -/
inductive Nested (t : TypeExpr) : ℕ → TypeExpr → Prop
  | refl : Nested t 0 t
  | array {levels : ℕ} {items : TypeExpr} (h : Nested t levels items) :
      Nested t levels (.array items)
  | field {levels : ℕ} {fields : List (String × FieldOf TypeExpr)} {index : Option TypeExpr}
      {f : String × FieldOf TypeExpr} (hf : f ∈ fields) (h : Nested t levels f.2.type) :
      Nested t (levels + 1) (.object fields index)
  | index {levels : ℕ} {fields : List (String × FieldOf TypeExpr)} {type : TypeExpr}
      (h : Nested t levels type) : Nested t (levels + 1) (.object fields (some type))
  | sum {levels : ℕ} {members : List TypeExpr} {m : TypeExpr} (hm : m ∈ members)
      (h : Nested t levels m) : Nested t levels (.sum members)
  | product {levels : ℕ} {members : List TypeExpr} {m : TypeExpr} (hm : m ∈ members)
      (h : Nested t levels m) : Nested t levels (.product members)
  | nullable {levels : ℕ} {inner : TypeExpr} (h : Nested t levels inner) :
      Nested t levels (.nullable inner)

/-- The name of a schema stands in the type. -/
def RefersTo (type : TypeExpr) (name : String) : Prop :=
  ∃ qualifier view, Within (.named name qualifier view false) type

theorem within_primitive_iff {t : TypeExpr} {type : PrimitiveType} :
    Within t (.primitive type) ↔ t = .primitive type := by
  constructor
  · intro h
    cases h
    rfl
  · rintro rfl
    exact .refl

theorem within_literals_iff {t : TypeExpr} {values : List Value} :
    Within t (.literals values) ↔ t = .literals values := by
  constructor
  · intro h
    cases h
    rfl
  · rintro rfl
    exact .refl

theorem within_named_iff {t : TypeExpr} {name qualifier : String} {view : Option View}
    {builtin : Bool} :
    Within t (.named name qualifier view builtin) ↔ t = .named name qualifier view builtin := by
  constructor
  · intro h
    cases h
    rfl
  · rintro rfl
    exact .refl

theorem within_array_iff {t items : TypeExpr} :
    Within t (.array items) ↔ t = .array items ∨ Within t items := by
  constructor
  · intro h
    cases h with
    | refl => exact Or.inl rfl
    | array h => exact Or.inr h
  · rintro (rfl | h)
    · exact .refl
    · exact .array h

theorem within_nullable_iff {t inner : TypeExpr} :
    Within t (.nullable inner) ↔ t = .nullable inner ∨ Within t inner := by
  constructor
  · intro h
    cases h with
    | refl => exact Or.inl rfl
    | nullable h => exact Or.inr h
  · rintro (rfl | h)
    · exact .refl
    · exact .nullable h

theorem within_sum_iff {t : TypeExpr} {members : List TypeExpr} :
    Within t (.sum members) ↔ t = .sum members ∨ ∃ m ∈ members, Within t m := by
  constructor
  · intro h
    cases h with
    | refl => exact Or.inl rfl
    | sum hm h => exact Or.inr ⟨_, hm, h⟩
  · rintro (rfl | ⟨m, hm, h⟩)
    · exact .refl
    · exact .sum hm h

theorem within_product_iff {t : TypeExpr} {members : List TypeExpr} :
    Within t (.product members) ↔ t = .product members ∨ ∃ m ∈ members, Within t m := by
  constructor
  · intro h
    cases h with
    | refl => exact Or.inl rfl
    | product hm h => exact Or.inr ⟨_, hm, h⟩
  · rintro (rfl | ⟨m, hm, h⟩)
    · exact .refl
    · exact .product hm h

theorem within_object_iff {t : TypeExpr} {fields : List (String × FieldOf TypeExpr)}
    {index : Option TypeExpr} :
    Within t (.object fields index) ↔ t = .object fields index ∨
      (∃ f ∈ fields, Within t f.2.type) ∨ ∃ type ∈ index, Within t type := by
  constructor
  · intro h
    cases h with
    | refl => exact Or.inl rfl
    | field hf h => exact Or.inr (Or.inl ⟨_, hf, h⟩)
    | index h => exact Or.inr (Or.inr ⟨_, rfl, h⟩)
  · rintro (rfl | ⟨f, hf, h⟩ | ⟨type, htype, h⟩)
    · exact .refl
    · exact .field hf h
    · rw [Option.mem_def.mp htype]
      exact .index h

/-- A part of an expression with null added is a part of the expression, or the whole. -/
theorem within_orNull {t type : TypeExpr} {flag : Bool} (h : Within t (orNull flag type)) :
    t = .nullable type ∨ Within t type := by
  cases flag with
  | false => exact Or.inr h
  | true =>
    change Within t (.nullable type) at h
    cases h with
    | refl => exact Or.inl rfl
    | nullable h => exact Or.inr h

/-! ## Projections -/

theorem viewNames_subset_fields {fields : List (String × FieldOf TypeExpr)}
    {f : String × FieldOf TypeExpr} (hf : f ∈ fields) :
    f.2.type.viewNames ⊆ viewNamesOfFields fields := by
  induction fields with
  | nil => exact absurd hf List.not_mem_nil
  | cons g rest ih =>
    obtain ⟨name, ⟨type, _, _, _, _⟩⟩ := g
    intro n hn
    rw [viewNamesOfFields, NameSet.mem_union]
    rcases List.mem_cons.mp hf with rfl | hf
    · exact Or.inl hn
    · exact Or.inr (ih hf hn)

theorem viewNames_subset_members {members : List TypeExpr} {m : TypeExpr} (hm : m ∈ members) :
    m.viewNames ⊆ viewNamesOfMembers members := by
  induction members with
  | nil => exact absurd hm List.not_mem_nil
  | cons type rest ih =>
    intro n hn
    rw [viewNamesOfMembers, NameSet.mem_union]
    rcases List.mem_cons.mp hm with rfl | hm
    · exact Or.inl hn
    · exact Or.inr (ih hm hn)

/-- The projections that occur in a part occur in the whole. -/
theorem viewNames_subset_of_within {t whole : TypeExpr} (h : Within t whole) :
    t.viewNames ⊆ whole.viewNames := by
  induction h with
  | refl => exact fun n hn => hn
  | array _ ih =>
    intro n hn
    rw [viewNames]
    exact ih hn
  | field hf _ ih =>
    intro n hn
    rw [viewNames, NameSet.mem_union]
    exact Or.inr (viewNames_subset_fields hf (ih hn))
  | index _ ih =>
    intro n hn
    rw [viewNames, NameSet.mem_union, viewNamesOfIndex]
    exact Or.inl (ih hn)
  | sum hm _ ih =>
    intro n hn
    rw [viewNames]
    exact viewNames_subset_members hm (ih hn)
  | product hm _ ih =>
    intro n hn
    rw [viewNames]
    exact viewNames_subset_members hm (ih hn)
  | nullable _ ih =>
    intro n hn
    rw [viewNames]
    exact ih hn

/-- The projection of a view that occurs in an expression is among its projections. -/
theorem projection_mem_viewNames {name qualifier : String} {view : View} {builtin : Bool}
    {whole : TypeExpr} (h : Within (.named name qualifier (some view) builtin) whole) :
    view.projection ∈ whole.viewNames := by
  refine viewNames_subset_of_within h ?_
  rw [viewNames]
  exact List.mem_singleton_self _

mutual

/-- What is collected from an expression is the projection of a view that occurs in it. -/
theorem exists_view_of_mem_viewNames : ∀ (type : TypeExpr) {n : String}, n ∈ type.viewNames →
    ∃ name qualifier view builtin,
      Within (.named name qualifier (some view) builtin) type ∧ n = view.projection
  | .named name qualifier (some view) builtin, n, h => by
    rw [viewNames] at h
    exact ⟨name, qualifier, view, builtin, .refl, List.mem_singleton.mp h⟩
  | .named _ _ none _, n, h => by
    rw [viewNames] at h
    exact absurd h List.not_mem_nil
  | .array items, n, h => by
    rw [viewNames] at h
    obtain ⟨name, qualifier, view, builtin, hwithin, hn⟩ := exists_view_of_mem_viewNames items h
    exact ⟨name, qualifier, view, builtin, .array hwithin, hn⟩
  | .object fields index, n, h => by
    rw [viewNames] at h
    rcases NameSet.mem_union.mp h with h | h
    · obtain ⟨type, rfl, name, qualifier, view, builtin, hwithin, hn⟩ :=
        exists_view_of_mem_index index h
      exact ⟨name, qualifier, view, builtin, .index hwithin, hn⟩
    · obtain ⟨f, hf, name, qualifier, view, builtin, hwithin, hn⟩ :=
        exists_view_of_mem_fields fields h
      exact ⟨name, qualifier, view, builtin, .field hf hwithin, hn⟩
  | .sum members, n, h => by
    rw [viewNames] at h
    obtain ⟨m, hm, name, qualifier, view, builtin, hwithin, hn⟩ :=
      exists_view_of_mem_members members h
    exact ⟨name, qualifier, view, builtin, .sum hm hwithin, hn⟩
  | .product members, n, h => by
    rw [viewNames] at h
    obtain ⟨m, hm, name, qualifier, view, builtin, hwithin, hn⟩ :=
      exists_view_of_mem_members members h
    exact ⟨name, qualifier, view, builtin, .product hm hwithin, hn⟩
  | .literals _, n, h => by
    rw [viewNames] at h
    exact absurd h List.not_mem_nil
  | .primitive _, n, h => by
    rw [viewNames] at h
    exact absurd h List.not_mem_nil
  | .nullable inner, n, h => by
    rw [viewNames] at h
    obtain ⟨name, qualifier, view, builtin, hwithin, hn⟩ := exists_view_of_mem_viewNames inner h
    exact ⟨name, qualifier, view, builtin, .nullable hwithin, hn⟩

theorem exists_view_of_mem_fields : ∀ (fields : List (String × FieldOf TypeExpr)) {n : String},
    n ∈ viewNamesOfFields fields → ∃ f ∈ fields, ∃ name qualifier view builtin,
      Within (.named name qualifier (some view) builtin) f.2.type ∧ n = view.projection
  | [], n, h => by
    rw [viewNamesOfFields] at h
    exact absurd h List.not_mem_nil
  | (key, ⟨type, isOptional, isReadOnly, isWriteOnly, isMarked⟩) :: rest, n, h => by
    rw [viewNamesOfFields] at h
    rcases NameSet.mem_union.mp h with h | h
    · obtain ⟨name, qualifier, view, builtin, hwithin, hn⟩ := exists_view_of_mem_viewNames type h
      exact ⟨_, List.mem_cons_self, name, qualifier, view, builtin, hwithin, hn⟩
    · obtain ⟨f, hf, hrest⟩ := exists_view_of_mem_fields rest h
      exact ⟨f, List.mem_cons_of_mem _ hf, hrest⟩

theorem exists_view_of_mem_index : ∀ (index : Option TypeExpr) {n : String},
    n ∈ viewNamesOfIndex index → ∃ type, index = some type ∧ ∃ name qualifier view builtin,
      Within (.named name qualifier (some view) builtin) type ∧ n = view.projection
  | none, n, h => by
    rw [viewNamesOfIndex] at h
    exact absurd h List.not_mem_nil
  | some type, n, h => by
    rw [viewNamesOfIndex] at h
    exact ⟨type, rfl, exists_view_of_mem_viewNames type h⟩

theorem exists_view_of_mem_members : ∀ (members : List TypeExpr) {n : String},
    n ∈ viewNamesOfMembers members → ∃ m ∈ members, ∃ name qualifier view builtin,
      Within (.named name qualifier (some view) builtin) m ∧ n = view.projection
  | [], n, h => by
    rw [viewNamesOfMembers] at h
    exact absurd h List.not_mem_nil
  | type :: rest, n, h => by
    rw [viewNamesOfMembers] at h
    rcases NameSet.mem_union.mp h with h | h
    · exact ⟨type, List.mem_cons_self, exists_view_of_mem_viewNames type h⟩
    · obtain ⟨m, hm, hrest⟩ := exists_view_of_mem_members rest h
      exact ⟨m, List.mem_cons_of_mem _ hm, hrest⟩

end

end TypedClient.TypeExpr

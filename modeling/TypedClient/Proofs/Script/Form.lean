import Mathlib.Data.Int.Notation
import Mathlib.Data.List.Basic

/-!
# Forms of types

What a type of the generated script says, apart from how it is written.  A union of unions says no
more than the union of their members, and a union of one type no more than that type; the same holds
of intersections.  In the normal form neither occurs.

* `Form`: the types of the script; the members of a union or an intersection are in order.
* `Form.operands`, `Form.combine`: the members of a type seen as a union or an intersection, and the
  type that combines the members of several.
* `Form.Normal`: nothing is left to flatten.
* `operands_combine`, `normal_combine`: combining keeps the members and the normal form.
-/

namespace TypedClient.Script

/-- The two ways to combine types. -/
inductive Combination where
  | union
  | intersection
deriving Repr, DecidableEq

/-- What an object type says of one property. -/
structure Property (T : Type) where
  name : String
  isReadOnly : Bool
  isOptional : Bool
  type : T
deriving Repr

/-- A type of the script.  Names are written with points between their parts, and may be applied to
an argument; the words for the types without parts are names too. -/
inductive Form where
  | name (path : List String)
  | apply (path : List String) (argument : Form)
  | text (value : String)
  | whole (value : ℤ)
  | array (items : Form)
  | object (properties : List (Property Form)) (index : Option Form)
  | compound (op : Combination) (members : List Form)
deriving Repr

namespace Form

/-- The members of a type seen as a union or an intersection; any other type is the only one. -/
def operands (op : Combination) : Form → List Form
  | .compound other members => if other = op then members else [.compound other members]
  | form => [form]

/-- The union or the intersection of some types. -/
def combine (op : Combination) (forms : List Form) : Form :=
  match forms.flatMap (operands op) with
  | [form] => form
  | members => .compound op members

/-- A type in which no union has a union as a member, no intersection an intersection, and both have
two members at least. -/
inductive Normal : Form → Prop
  | name (path : List String) : Normal (.name path)
  | apply (path : List String) {argument : Form} (h : Normal argument) :
      Normal (.apply path argument)
  | text (value : String) : Normal (.text value)
  | whole (value : ℤ) : Normal (.whole value)
  | array {items : Form} (h : Normal items) : Normal (.array items)
  | object {properties : List (Property Form)} {index : Option Form}
      (hproperties : ∀ p ∈ properties, Normal p.type) (hindex : ∀ type ∈ index, Normal type) :
      Normal (.object properties index)
  | compound {op : Combination} {members : List Form} (htwo : 2 ≤ members.length)
      (hmembers : ∀ m ∈ members, Normal m) (hflat : ∀ m ∈ members, m.operands op = [m]) :
      Normal (.compound op members)

variable {op : Combination} {form other : Form} {forms : List Form}

theorem operands_compound (members : List Form) : (compound op members).operands op = members :=
  if_pos rfl

/-- The members of a type are of the same kind as the type: normal, and flat. -/
theorem Normal.of_mem_operands (h : Normal form) (hmem : other ∈ form.operands op) :
    Normal other ∧ other.operands op = [other] := by
  have hself : form.operands op = [form] → Normal other ∧ other.operands op = [other] := by
    intro heq
    rw [heq, List.mem_singleton] at hmem
    rw [hmem]
    exact ⟨h, heq⟩
  cases h with
  | @compound other _ _ hmembers hflat =>
    by_cases hop : other = op
    · rw [operands, if_pos hop] at hmem
      exact ⟨hmembers _ hmem, hop ▸ hflat _ hmem⟩
    · exact hself (if_neg hop)
  | _ => exact hself rfl

/-- A type that has itself as the only member is left alone. -/
theorem Normal.eq_of_operands (h : Normal form) (heq : form.operands op = [other]) :
    form = other := by
  cases h with
  | @compound found members htwo _ _ =>
    rw [operands] at heq
    split at heq
    · rw [heq] at htwo
      exact absurd htwo (Nat.not_succ_le_self 1)
    · exact List.singleton_inj.mp heq
  | _ => exact List.singleton_inj.mp heq

theorem Normal.operands_ne_nil (h : Normal form) : form.operands op ≠ [] := by
  intro hnil
  cases h with
  | @compound found members htwo _ _ =>
    rw [operands] at hnil
    split at hnil
    · rw [hnil] at htwo
      exact absurd htwo (by decide)
    · exact List.cons_ne_nil _ _ hnil
  | _ => exact List.cons_ne_nil _ _ hnil

/-- What combines some types depends on their members only. -/
theorem combine_congr {gs : List Form}
    (h : forms.flatMap (operands op) = gs.flatMap (operands op)) :
    combine op forms = combine op gs := by
  rw [combine, h, combine]

/-- A type in normal form is all that combines it. -/
theorem combine_singleton (op : Combination) (h : Normal form) : combine op [form] = form := by
  have hflat : [form].flatMap (operands op) = form.operands op := List.flatMap_singleton _ _
  rw [combine, hflat]
  split
  · rename_i heq
    exact (h.eq_of_operands heq).symm
  · rename_i hmany
    cases h with
    | @compound found members _ _ _ =>
      by_cases hop : found = op
      · rw [operands, if_pos hop, hop]
      · exact absurd (if_neg hop) (hmany _)
    | _ => exact absurd rfl (hmany _)

/-- Combining types keeps their members. -/
theorem operands_combine (h : ∀ f ∈ forms, Normal f) :
    (combine op forms).operands op = forms.flatMap (operands op) := by
  rw [combine]
  split
  · rename_i form heq
    have hmem : form ∈ forms.flatMap (operands op) := heq ▸ List.mem_singleton_self form
    obtain ⟨f, hf, hform⟩ := List.mem_flatMap.mp hmem
    rw [((h f hf).of_mem_operands hform).2, heq]
  · exact operands_compound _

/-- Types in normal form combine to one. -/
theorem normal_combine (hne : forms ≠ []) (h : ∀ f ∈ forms, Normal f) :
    Normal (combine op forms) := by
  have hflat : ∀ m ∈ forms.flatMap (operands op), Normal m ∧ m.operands op = [m] := by
    intro m hm
    obtain ⟨f, hf, hm⟩ := List.mem_flatMap.mp hm
    exact (h f hf).of_mem_operands hm
  have hmembers : forms.flatMap (operands op) ≠ [] := by
    obtain ⟨f, hf⟩ := List.exists_mem_of_ne_nil forms hne
    intro hnil
    exact (h f hf).operands_ne_nil (List.flatMap_eq_nil_iff.mp hnil f hf)
  rw [combine]
  split
  · rename_i form heq
    exact (hflat form (heq ▸ List.mem_singleton_self form)).1
  · rename_i hmany
    refine .compound ?_ (fun m hm => (hflat m hm).1) fun m hm => (hflat m hm).2
    by_contra hlt
    obtain ⟨m, hm⟩ | hnil : (∃ m, forms.flatMap (operands op) = [m]) ∨
        forms.flatMap (operands op) = [] := by
      rcases hforms : forms.flatMap (operands op) with _ | ⟨m, _ | ⟨_, _⟩⟩
      · exact Or.inr rfl
      · exact Or.inl ⟨m, rfl⟩
      · rw [hforms, List.length_cons, List.length_cons] at hlt
        omega
    · exact hmany m hm
    · exact hmembers hnil

theorem normal_combine_map {α : Type} {members : List α} {form : α → Form} (hne : members ≠ [])
    (h : ∀ m ∈ members, Normal (form m)) : Normal (combine op (members.map form)) := by
  have hne' : members.map form ≠ [] := fun hnil => hne (List.map_eq_nil_iff.mp hnil)
  exact normal_combine hne' (List.forall_mem_map.mpr h)

/-- Some types are combined one after the other. -/
theorem combine_cons (h : ∀ f ∈ forms, Normal f) :
    combine op (form :: forms) = combine op [form, combine op forms] := by
  refine combine_congr ?_
  rw [List.flatMap_cons, List.flatMap_cons, List.flatMap_singleton, operands_combine h]

end Form

end TypedClient.Script

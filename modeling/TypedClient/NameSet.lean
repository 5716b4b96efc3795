/-!
# Sets of names

Finite sets of names as ascending lists without repetitions, so that equal sets are equal lists.

* `NameSet.insert`, `NameSet.union`, `NameSet.ofList`.
* `NameSet.mem_insert`, `NameSet.mem_union`: what the results hold.
* `NameSet.ascends_insert`, `NameSet.ascends_union`: the results are in ascending order.
-/

namespace TypedClient

/-- A set of names in ascending order. -/
abbrev NameSet := List String

namespace NameSet

/-- The set with one more name. -/
def insert (name : String) : NameSet → NameSet
  | [] => [name]
  | n :: rest =>
    if name = n then n :: rest
    else if name < n then name :: n :: rest
    else n :: insert name rest

/-- The names of a list, as a set. -/
def ofList (names : List String) : NameSet :=
  names.foldr insert []

/-- The names of either set. -/
def union (s t : NameSet) : NameSet :=
  s.foldr insert t

theorem mem_insert {name n : String} {s : NameSet} : n ∈ insert name s ↔ n = name ∨ n ∈ s := by
  induction s with
  | nil => simp [insert]
  | cons m rest ih =>
    simp only [insert]
    split
    · subst name
      simp
    · split
      · simp
      · simp only [List.mem_cons, ih]
        constructor
        · rintro (h | h | h)
          · exact Or.inr (Or.inl h)
          · exact Or.inl h
          · exact Or.inr (Or.inr h)
        · rintro (h | h | h)
          · exact Or.inr (Or.inl h)
          · exact Or.inl h
          · exact Or.inr (Or.inr h)

theorem mem_union {n : String} {s t : NameSet} : n ∈ union s t ↔ n ∈ s ∨ n ∈ t := by
  induction s with
  | nil => simp [union]
  | cons m rest ih =>
    have hfold : union (m :: rest) t = insert m (union rest t) := rfl
    rw [hfold, mem_insert, ih, List.mem_cons, or_assoc]

/-! ## Order -/

/-- The names of a set stand in ascending order. -/
def Ascends (s : NameSet) : Prop := s.Pairwise (· < ·)

theorem ascends_insert {name : String} {s : NameSet} (h : Ascends s) : Ascends (insert name s) := by
  induction s with
  | nil => exact List.pairwise_singleton _ _
  | cons n rest ih =>
    obtain ⟨hleast, hrest⟩ := List.pairwise_cons.mp h
    rw [insert]
    split
    · exact h
    · rename_i hne
      split
      · rename_i hlt
        refine List.pairwise_cons.mpr ⟨fun m hm => ?_, h⟩
        rcases List.mem_cons.mp hm with rfl | hm
        · exact hlt
        · exact String.lt_trans hlt (hleast m hm)
      · rename_i hnot
        refine List.pairwise_cons.mpr ⟨fun m hm => ?_, ih hrest⟩
        rcases mem_insert.mp hm with rfl | hm
        · exact Std.lt_of_le_of_ne (String.not_lt.mp hnot) (Ne.symm hne)
        · exact hleast m hm

theorem ascends_union (s : NameSet) {t : NameSet} (h : Ascends t) : Ascends (union s t) := by
  induction s with
  | nil => exact h
  | cons name rest ih => exact ascends_insert ih

/-- No name stands twice in a set. -/
theorem Ascends.nodup {s : NameSet} (h : Ascends s) : s.Nodup := by
  refine List.Pairwise.imp ?_ h
  rintro a b hlt rfl
  exact String.lt_irrefl a hlt

end NameSet

end TypedClient

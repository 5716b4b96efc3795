import Mathlib.Data.List.Induction
import Mathlib.Data.List.Nodup

/-!
# First occurrences

Of the elements of a list that share a key only the first is kept, so that the keys that are left
stand in the order in which they were first seen.

* `firstBy`: the elements whose key was not seen before.
* `map_firstBy`: their keys, each once, in the order in which they were first seen.
* `firstBy_concat`, `firstBy_append_of_subset`: what further elements at the end of the list add.
* `mem_firstBy_iff`: an element is kept exactly if it is the first with its key.
* `rel_of_mem_firstBy`: in a list that is ordered it comes before all others with its key.
-/

namespace TypedClient

variable {α κ : Type} [BEq κ]

/-- The elements whose key was not seen before, in order. -/
def firstBy (key : α → κ) : List α → List α
  | [] => []
  | a :: rest => a :: (firstBy key rest).filter fun b => key b != key a

@[simp] theorem firstBy_nil (key : α → κ) : firstBy key [] = [] := rfl

theorem firstBy_cons (key : α → κ) (a : α) (rest : List α) :
    firstBy key (a :: rest) = a :: (firstBy key rest).filter fun b => key b != key a := rfl

/-- Nothing is added, and the order is kept. -/
theorem firstBy_sublist (key : α → κ) (l : List α) : (firstBy key l).Sublist l := by
  induction l with
  | nil => exact List.Sublist.refl []
  | cons a rest ih =>
    rw [firstBy_cons]
    exact List.Sublist.cons_cons a (List.filter_sublist.trans ih)

theorem mem_of_mem_firstBy {key : α → κ} {a : α} {l : List α} (h : a ∈ firstBy key l) : a ∈ l :=
  (firstBy_sublist key l).subset h

variable [LawfulBEq κ]

/-- Every key that occurs is kept. -/
theorem mem_map_firstBy_iff {key : α → κ} {k : κ} {l : List α} :
    k ∈ (firstBy key l).map key ↔ k ∈ l.map key := by
  induction l with
  | nil => exact Iff.rfl
  | cons a rest ih =>
    rw [firstBy_cons, List.map_cons, List.map_cons, List.mem_cons, List.mem_cons]
    by_cases hk : k = key a
    · exact ⟨fun _ => Or.inl hk, fun _ => Or.inl hk⟩
    · refine or_congr Iff.rfl (Iff.trans ?_ ih)
      simp only [List.mem_map, List.mem_filter, bne_iff_ne]
      constructor
      · rintro ⟨b, ⟨hb, -⟩, rfl⟩
        exact ⟨b, hb, rfl⟩
      · rintro ⟨b, hb, rfl⟩
        exact ⟨b, ⟨hb, hk⟩, rfl⟩

/-- No key is kept twice. -/
theorem nodup_map_firstBy (key : α → κ) (l : List α) : ((firstBy key l).map key).Nodup := by
  induction l with
  | nil => exact List.nodup_nil
  | cons a rest ih =>
    rw [firstBy_cons, List.map_cons, List.nodup_cons]
    constructor
    · intro hmem
      obtain ⟨b, hb, hkey⟩ := List.mem_map.mp hmem
      have hne := (List.mem_filter.mp hb).2
      rw [bne_iff_ne] at hne
      exact hne hkey
    · exact ih.sublist (List.filter_sublist.map key)

/-- What one more element at the end adds: itself, unless its key was seen before. -/
theorem firstBy_concat (key : α → κ) (l : List α) (a : α) :
    firstBy key (l ++ [a]) =
      if key a ∈ l.map key then firstBy key l else firstBy key l ++ [a] := by
  induction l with
  | nil => rfl
  | cons b rest ih =>
    rw [List.cons_append, firstBy_cons, firstBy_cons, ih, List.map_cons]
    by_cases hb : key a = key b
    · have hmem : key a ∈ key b :: rest.map key := by
        rw [hb]
        exact List.mem_cons_self
      have hskip : ([a].filter fun c => key c != key b) = [] := by simp [hb]
      rw [if_pos hmem]
      split
      · rfl
      · rw [List.filter_append, hskip, List.append_nil]
    · have hkeep : ([a].filter fun c => key c != key b) = [a] := by simp [hb]
      by_cases hrest : key a ∈ rest.map key
      · rw [if_pos hrest, if_pos (List.mem_cons_of_mem _ hrest)]
      · have hnew : key a ∉ key b :: rest.map key := by
          rw [List.mem_cons, not_or]
          exact ⟨hb, hrest⟩
        rw [if_neg hrest, if_neg hnew, List.filter_append, hkeep, List.cons_append]

/-- Elements whose keys were all seen before add nothing. -/
theorem firstBy_append_of_subset {key : α → κ} {l more : List α}
    (h : ∀ a ∈ more, key a ∈ l.map key) : firstBy key (l ++ more) = firstBy key l := by
  induction more using List.reverseRecOn with
  | nil => rw [List.append_nil]
  | append_singleton rest a ih =>
    have hrest : ∀ b ∈ rest, key b ∈ l.map key := fun b hb => h b (List.mem_append_left _ hb)
    have ha : key a ∈ (l ++ rest).map key := by
      rw [List.map_append]
      exact List.mem_append_left _ (h a (List.mem_append_right _ (List.mem_singleton_self a)))
    rw [← List.append_assoc, firstBy_concat, if_pos ha]
    exact ih hrest

theorem removeAll_singleton (k : κ) (keys : List κ) :
    [k].removeAll keys = if k ∈ keys then [] else [k] := by
  by_cases h : k ∈ keys <;> simp [List.removeAll, h]

/-- What one more key at the end adds: itself, unless it was seen before. -/
theorem eraseDups_concat (keys : List κ) (k : κ) :
    (keys ++ [k]).eraseDups =
      if k ∈ keys.eraseDups then keys.eraseDups else keys.eraseDups ++ [k] := by
  rw [List.eraseDups_append, removeAll_singleton]
  simp only [List.mem_eraseDups]
  split
  · rw [List.eraseDups_nil, List.append_nil]
  · rfl

/-- The keys that are kept, in the order in which they were first seen. -/
theorem map_firstBy (key : α → κ) (l : List α) :
    (firstBy key l).map key = (l.map key).eraseDups := by
  induction l using List.reverseRecOn with
  | nil => rfl
  | append_singleton rest a ih =>
    rw [firstBy_concat, List.map_append, List.map_singleton, eraseDups_concat, ← ih]
    simp only [mem_map_firstBy_iff]
    split
    · rfl
    · rw [List.map_append, List.map_singleton]

theorem nodup_eraseDups (l : List κ) : l.eraseDups.Nodup := by
  have hnodup := nodup_map_firstBy id l
  rw [map_firstBy, List.map_id] at hnodup
  exact hnodup

/-- An element is kept exactly if it is the first with its key. -/
theorem mem_firstBy_iff {key : α → κ} {a : α} {l : List α} :
    a ∈ firstBy key l ↔ l.find? (fun b => key b == key a) = some a := by
  induction l with
  | nil => simp
  | cons b rest ih =>
    rw [firstBy_cons, List.mem_cons, List.find?_cons]
    by_cases hb : key b = key a
    · rw [beq_iff_eq.mpr hb, Option.some_inj]
      constructor
      · rintro (rfl | hmem)
        · rfl
        · have hne := (List.mem_filter.mp hmem).2
          rw [bne_iff_ne] at hne
          exact absurd hb.symm hne
      · rintro rfl
        exact Or.inl rfl
    · rw [beq_eq_false_iff_ne.mpr hb, ← ih, List.mem_filter, bne_iff_ne]
      constructor
      · rintro (rfl | ⟨hmem, -⟩)
        · exact absurd rfl hb
        · exact hmem
      · exact fun hmem => Or.inr ⟨hmem, fun heq => hb heq.symm⟩

/-- In a list that is ordered, a kept element stands in the order with every element that has its
key. -/
theorem rel_of_mem_firstBy {key : α → κ} {R : α → α → Prop} (hrefl : ∀ a, R a a) {l : List α}
    (hl : l.Pairwise R) {a b : α} (ha : a ∈ firstBy key l) (hb : b ∈ l) (hkey : key b = key a) :
    R a b := by
  induction l with
  | nil => cases ha
  | cons c rest ih =>
    obtain ⟨hfirst, hrest⟩ := List.pairwise_cons.mp hl
    rw [firstBy_cons, List.mem_cons, List.mem_filter, bne_iff_ne] at ha
    rcases ha with rfl | ⟨ha, hne⟩
    · rcases List.mem_cons.mp hb with rfl | hb
      · exact hrefl _
      · exact hfirst b hb
    · rcases List.mem_cons.mp hb with rfl | hb
      · exact absurd hkey.symm hne
      · exact ih hrest ha hb

end TypedClient

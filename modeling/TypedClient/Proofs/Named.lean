import Mathlib.Data.List.Induction
import Mathlib.Data.List.Nodup
import TypedClient.Named
import TypedClient.Proofs.FirstSeen

/-!
# Reading and writing named entries

What the names of a list of entries say about reading it.  Where no name stands twice, an entry is
read exactly if it is a member, so that a list of entries is a finite map.

* `Named.get?_eq_none_iff`, `Named.get?_eq_some_iff`: which entries are read.
* `Named.get?_append`: entries that are added behind hide none.
* `Named.mem_of_mem_put`, `Named.mem_of_mem_ofList`: the entries after one write and after many.
* `Named.get?_ofList`, `Named.names_ofList`: of many writes under one name the last one is read, and
  the name stands where it was first written.
* `Named.map_get?_zip`: reading a list of entries that was zipped from its names.
-/

namespace TypedClient.Named

variable {α : Type}

@[simp] theorem names_nil : names ([] : Named α) = [] := rfl

@[simp] theorem names_cons (p : String × α) (entries : Named α) :
    names (p :: entries) = p.1 :: names entries := rfl

theorem get?_cons (name n : String) (e : α) (entries : Named α) :
    get? name ((n, e) :: entries) = if n = name then some e else get? name entries := rfl

/-- What is read is an entry. -/
theorem mem_of_get? {name : String} {entry : α} {entries : Named α}
    (h : get? name entries = some entry) : (name, entry) ∈ entries := by
  induction entries with
  | nil => exact absurd h (by simp [get?])
  | cons p rest ih =>
    obtain ⟨n, e⟩ := p
    rw [get?_cons] at h
    by_cases hn : n = name
    · rw [if_pos hn] at h
      rw [← hn, Option.some_inj.mp h]
      exact List.mem_cons_self
    · rw [if_neg hn] at h
      exact List.mem_cons_of_mem _ (ih h)

/-- Nothing is read exactly under the names that do not occur. -/
theorem get?_eq_none_iff {name : String} {entries : Named α} :
    get? name entries = none ↔ name ∉ names entries := by
  induction entries with
  | nil => simp [get?]
  | cons p rest ih =>
    obtain ⟨n, e⟩ := p
    rw [get?_cons, names_cons, List.mem_cons, not_or]
    by_cases hn : n = name
    · rw [if_pos hn]
      exact ⟨fun h => absurd h (by simp), fun h => absurd hn.symm h.1⟩
    · rw [if_neg hn, ih]
      exact ⟨fun h => ⟨fun heq => hn heq.symm, h⟩, fun h => h.2⟩

theorem mem_names_of_mem {name : String} {entry : α} {entries : Named α}
    (h : (name, entry) ∈ entries) : name ∈ names entries :=
  List.mem_map.mpr ⟨(name, entry), h, rfl⟩

/-- Where no name stands twice, an entry is read exactly if it is a member. -/
theorem get?_eq_some_iff {name : String} {entry : α} {entries : Named α}
    (hnodup : (names entries).Nodup) :
    get? name entries = some entry ↔ (name, entry) ∈ entries := by
  refine ⟨mem_of_get?, fun hmem => ?_⟩
  induction entries with
  | nil => exact absurd hmem List.not_mem_nil
  | cons p rest ih =>
    obtain ⟨n, e⟩ := p
    rw [names_cons, List.nodup_cons] at hnodup
    rw [get?_cons]
    rcases List.mem_cons.mp hmem with heq | hrest
    · rw [Prod.mk.injEq] at heq
      rw [if_pos heq.1.symm, heq.2]
    · have hn : n ≠ name := by
        rintro rfl
        exact hnodup.1 (mem_names_of_mem hrest)
      rw [if_neg hn]
      exact ih hnodup.2 hrest

/-- Where no name stands twice, entries with the same members read the same. -/
theorem get?_eq_of_mem_iff {entries others : Named α} (hnodup : (names entries).Nodup)
    (hnodup' : (names others).Nodup) (h : ∀ p, p ∈ entries ↔ p ∈ others) (name : String) :
    get? name entries = get? name others := by
  refine Option.ext fun entry => ?_
  rw [get?_eq_some_iff hnodup, get?_eq_some_iff hnodup', h]

/-- An entry that is read is still read with further entries behind it. -/
theorem get?_append {name : String} {entry : α} {entries : Named α}
    (h : get? name entries = some entry) (more : Named α) :
    get? name (entries ++ more) = some entry := by
  induction entries with
  | nil => cases h
  | cons p rest ih =>
    obtain ⟨n, e⟩ := p
    rw [get?_cons] at h
    rw [List.cons_append, get?_cons]
    by_cases hn : n = name
    · rw [if_pos hn] at h ⊢
      exact h
    · rw [if_neg hn] at h ⊢
      exact ih h

/-- A write brings in no entry but the one written. -/
theorem mem_of_mem_put {name : String} {entry : α} {p : String × α} {entries : Named α}
    (h : p ∈ put name entry entries) : p = (name, entry) ∨ p ∈ entries := by
  induction entries with
  | nil => exact Or.inl (List.mem_singleton.mp h)
  | cons q rest ih =>
    obtain ⟨n, e⟩ := q
    rw [put] at h
    split at h
    · rename_i hn
      rcases List.mem_cons.mp h with rfl | h
      · exact Or.inl (by rw [hn])
      · exact Or.inr (List.mem_cons_of_mem _ h)
    · rcases List.mem_cons.mp h with rfl | h
      · exact Or.inr List.mem_cons_self
      · rcases ih h with heq | hmem
        · exact Or.inl heq
        · exact Or.inr (List.mem_cons_of_mem _ hmem)

theorem ofList_concat (entries : List (String × α)) (p : String × α) :
    ofList (entries ++ [p]) = put p.1 p.2 (ofList entries) := by
  rw [ofList, ofList, List.foldl_append, List.foldl_cons, List.foldl_nil]

/-- Writing entries one after the other brings in no other entry. -/
theorem mem_of_mem_ofList {p : String × α} {entries : List (String × α)}
    (h : p ∈ ofList entries) : p ∈ entries := by
  induction entries using List.reverseRecOn with
  | nil => exact absurd h List.not_mem_nil
  | append_singleton rest q ih =>
    rw [ofList_concat] at h
    rcases mem_of_mem_put h with rfl | h
    · exact List.mem_append_right _ (List.mem_singleton_self _)
    · exact List.mem_append_left _ (ih h)

theorem get?_put (name other : String) (entry : α) (entries : Named α) :
    get? name (put other entry entries) =
      if other = name then some entry else get? name entries := by
  split
  · rename_i h
    rw [h, get?_put_self]
  · rename_i h
    exact get?_put_of_ne (fun heq => h heq.symm) entry entries

/-- Of the entries that were written under a name the last one is read. -/
theorem get?_ofList (name : String) (entries : List (String × α)) :
    get? name (ofList entries) = get? name entries.reverse := by
  induction entries using List.reverseRecOn with
  | nil => rfl
  | append_singleton rest p ih =>
    rw [ofList_concat, get?_put, ih, List.reverse_concat, get?_cons]

/-- No name stands twice among entries that were written one after the other. -/
theorem nodup_names_ofList (entries : List (String × α)) : (names (ofList entries)).Nodup := by
  induction entries using List.reverseRecOn with
  | nil => exact List.nodup_nil
  | append_singleton rest p ih =>
    rw [ofList_concat]
    exact nodup_names_put ih

/-- The names of entries that were written one after the other, in the order in which each was first
written. -/
theorem names_ofList (entries : List (String × α)) :
    names (ofList entries) = (names entries).eraseDups := by
  induction entries using List.reverseRecOn with
  | nil => rfl
  | append_singleton rest p ih =>
    have hconcat : names (rest ++ [p]) = names rest ++ [p.1] := List.map_append
    rw [ofList_concat, names_put, ih, hconcat, eraseDups_concat]

/-- A new name goes to the end. -/
theorem put_of_notMem {name : String} {entries : Named α} (h : name ∉ names entries) (entry : α) :
    put name entry entries = entries ++ [(name, entry)] := by
  induction entries with
  | nil => rfl
  | cons p rest ih =>
    obtain ⟨n, e⟩ := p
    rw [names_cons, List.mem_cons, not_or] at h
    rw [put, if_neg (Ne.symm h.1), ih h.2, List.cons_append]

/-- Entries of different names are kept as they are. -/
theorem ofList_eq_self {entries : List (String × α)} (h : (names entries).Nodup) :
    ofList entries = entries := by
  induction entries using List.reverseRecOn with
  | nil => rfl
  | append_singleton rest p ih =>
    have hconcat : names (rest ++ [p]) = names rest ++ [p.1] := List.map_append
    rw [hconcat, List.nodup_append] at h
    have hfresh : p.1 ∉ names rest :=
      fun hmem => h.2.2 _ hmem _ (List.mem_singleton_self _) rfl
    rw [ofList_concat, ih h.1, put_of_notMem hfresh]

/-- Reading under each of its names a list of entries that was zipped from them. -/
theorem map_get?_zip {keys : List String} {values : List α} (hnodup : keys.Nodup)
    (hlen : keys.length = values.length) (fallback : String → α) :
    keys.map (fun key => (get? key (keys.zip values)).getD (fallback key)) = values := by
  induction keys generalizing values with
  | nil =>
    rw [List.length_nil] at hlen
    exact (List.eq_nil_of_length_eq_zero hlen.symm).symm
  | cons key rest ih =>
    match values, hlen with
    | value :: more, hlen =>
      rw [List.nodup_cons] at hnodup
      have hlen' : rest.length = more.length := by simpa using hlen
      rw [List.zip_cons_cons, List.map_cons, get?_cons, if_pos rfl, Option.getD_some]
      congr 1
      conv_rhs => rw [← ih hnodup.2 hlen']
      refine List.map_congr_left fun k hk => ?_
      have hne : key ≠ k := by
        rintro rfl
        exact hnodup.1 hk
      rw [get?_cons, if_neg hne]

end TypedClient.Named

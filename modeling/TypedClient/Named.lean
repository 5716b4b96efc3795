/-!
# Named entries in order

Lists of entries under names that keep the order in which the names first appeared.

* `Named`: the lists.
* `Named.put`: writes an entry; a name already present keeps its place.
* `Named.get?`: reads an entry, with the lemmas that tie it to `put`.
* `Named.names`: the names in order, which `put` keeps free of repetitions.
-/

namespace TypedClient

/-- Entries under names, in order. -/
abbrev Named (α : Type) := List (String × α)

namespace Named

variable {α : Type}

/-- Writes an entry: a new name goes to the end, a name already present keeps its place and takes
the new entry. -/
def put (name : String) (entry : α) : Named α → Named α
  | [] => [(name, entry)]
  | (n, e) :: rest => if n = name then (n, entry) :: rest else (n, e) :: put name entry rest

/-- The entry under a name. -/
def get? (name : String) : Named α → Option α
  | [] => none
  | (n, e) :: rest => if n = name then some e else get? name rest

/-- The names in order. -/
def names (entries : Named α) : List String :=
  entries.map Prod.fst

/-- The entries in order, later ones overwriting earlier ones of the same name. -/
def ofList (entries : List (String × α)) : Named α :=
  entries.foldl (fun named p => put p.1 p.2 named) []

@[simp] theorem get?_put_self (name : String) (entry : α) (entries : Named α) :
    get? name (put name entry entries) = some entry := by
  induction entries with
  | nil => simp [put, get?]
  | cons p rest ih =>
    obtain ⟨n, e⟩ := p
    by_cases h : n = name <;> simp [put, get?, h, ih]

theorem get?_put_of_ne {name other : String} (h : name ≠ other) (entry : α) (entries : Named α) :
    get? name (put other entry entries) = get? name entries := by
  induction entries with
  | nil => simp [put, get?, h.symm]
  | cons p rest ih =>
    obtain ⟨n, e⟩ := p
    by_cases hn : n = other
    · subst hn
      simp [put, get?, h.symm]
    · by_cases hm : n = name
      · subst hm
        simp [put, get?, hn]
      · simp [put, get?, hn, hm, ih]

/-- Writing adds the name at the end unless it is present already. -/
theorem names_put (name : String) (entry : α) (entries : Named α) :
    names (put name entry entries) =
      if name ∈ names entries then names entries else names entries ++ [name] := by
  induction entries with
  | nil => simp [put, names]
  | cons p rest ih =>
    obtain ⟨n, e⟩ := p
    by_cases h : n = name
    · simp [put, names, h]
    · have hne : name ≠ n := fun heq => h heq.symm
      simp only [names] at ih
      by_cases hm : name ∈ rest.map Prod.fst
      · simp [put, names, h, ih, hm]
      · simp [put, names, h, ih, hm, hne]

/-- Writing keeps the names free of repetitions. -/
theorem nodup_names_put {name : String} {entry : α} {entries : Named α}
    (h : (names entries).Nodup) : (names (put name entry entries)).Nodup := by
  rw [names_put]
  split
  · exact h
  · rename_i hm
    refine List.nodup_append.mpr ⟨h, by simp, ?_⟩
    intro a ha b hb
    rw [List.mem_singleton] at hb
    subst hb
    exact fun hab => hm (hab ▸ ha)

end Named

end TypedClient

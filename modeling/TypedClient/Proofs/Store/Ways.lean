import Mathlib.Data.List.Nodup
import TypedClient.Proofs.Store.Files

/-!
# The ways of paths

A path leads through one location after the other, and it leads to its destination exactly if there
is a directory at each of them.  Creating the directories of a path puts one at each location that
the path arrives at, which fails only where a regular file stands.

* `wayFrom`, `way`: the locations that a path leads through.
* `locate_eq_ok_iff`: when a path leads to its destination.
* `exists_makeDirectories_iff`, `get?_of_makeDirectories`: when directories can be created, and what
  is there afterwards.
* `Grows`: a store that has all the directories of another one, so that paths lead where they did.
* `Adds`: one that has no other directories than these and some at given locations.
-/

namespace TypedClient.Store

variable {s t u : Store} {l m : Location} {p : Path} {part : String} {parts : List String}
  {data : ByteArray}

/-! ## Ways -/

/-- The locations that parts of a path lead through from a location, without the one where they
end. -/
def wayFrom : Location → List String → List Location
  | _, [] => []
  | l, part :: rest => l :: wayFrom (advance l part) rest

/-- The locations that parts of a path arrive at from a location. -/
def stopsFrom : Location → List String → List Location
  | _, [] => []
  | l, part :: rest => advance l part :: stopsFrom (advance l part) rest

/-- The locations that a path leads through, without its destination. -/
def way (s : Store) (p : Path) : List Location := wayFrom (s.startOf p) p.parts

/-- A path leads through its start and the locations that it arrives at but for the last one. -/
theorem wayFrom_cons (l : Location) (part : String) (rest : List String) :
    wayFrom l (part :: rest) = l :: stopsFrom l (part :: rest).dropLast := by
  induction rest generalizing l part with
  | nil => rfl
  | cons next rest ih =>
    rw [wayFrom, ih, List.dropLast_cons_cons, stopsFrom]

theorem stopsFrom_subset_wayFrom (l : Location) (parts : List String) :
    stopsFrom l parts.dropLast ⊆ wayFrom l parts := by
  cases parts with
  | nil => exact List.nil_subset _
  | cons part rest =>
    rw [wayFrom_cons]
    exact List.subset_cons_self _ _

theorem walk_eq_ok_iff : s.walk l parts = .ok m ↔
    (∀ k ∈ wayFrom l parts, s.get? k = some .directory) ∧ m = parts.foldl advance l := by
  induction parts generalizing l with
  | nil =>
    rw [walk, Except.ok.injEq, wayFrom, List.foldl_nil, eq_comm]
    exact (and_iff_right (by simp)).symm
  | cons part rest ih =>
    rw [walk, wayFrom, List.forall_mem_cons, List.foldl_cons]
    rcases hget : s.get? l with _ | (data | _)
    · simp
    · simp
    · simp only [true_and]
      exact ih

/-- A path leads to its destination exactly if it leads through directories. -/
theorem locate_eq_ok_iff : s.locate p = .ok l ↔
    (∀ k ∈ s.way p, s.get? k = some .directory) ∧ l = s.destination p :=
  walk_eq_ok_iff

theorem way_of_here (h : t.here = s.here) (p : Path) : t.way p = s.way p := by
  rw [way, way, startOf, startOf, h]

/-! ## Creating directories -/

theorem fileIn_eq_none_of_directory (h : s.get? l = some .directory) : s.fileIn l = none := by
  rw [fileIn, h]

theorem exists_makeDirectory_iff : (∃ t, s.makeDirectory l = .ok t) ↔ s.fileIn l = none := by
  rw [makeDirectory, fileIn]
  rcases s.get? l with _ | (data | _)
  · simp
  · simp
  · simp

theorem get?_of_makeDirectory (h : s.makeDirectory l = .ok t) (m : Location) :
    t.get? m = if m = l then some .directory else s.get? m := by
  rw [makeDirectory] at h
  rcases hget : s.get? l with _ | (data | _)
  · rw [hget] at h
    obtain rfl := Except.ok.inj h
    have hl : l ≠ [] := ne_nil_of_get?_ne (by rw [hget]; exact (Option.some_ne_none _).symm)
    exact get?_put hl m _
  · rw [hget] at h
    cases h
  · rw [hget] at h
    obtain rfl := Except.ok.inj h
    by_cases hm : m = l
    · rw [if_pos hm, hm, hget]
    · rw [if_neg hm]

theorem exists_makeWay_iff :
    (∃ t, s.makeWay l parts = .ok t) ↔ ∀ k ∈ stopsFrom l parts, s.fileIn k = none := by
  induction parts generalizing s l with
  | nil => exact iff_of_true ⟨s, rfl⟩ (by simp [stopsFrom])
  | cons part rest ih =>
    rw [stopsFrom, List.forall_mem_cons]
    constructor
    · rintro ⟨t, h⟩
      rw [makeWay] at h
      obtain ⟨u, hu, h⟩ := Outcome.bind_eq_ok_iff.mp h
      have hsame : SameFiles s u := sameFiles_of_makeDirectory hu
      refine ⟨exists_makeDirectory_iff.mp ⟨u, hu⟩, fun k hk => ?_⟩
      rw [← hsame.fileIn]
      exact ih.mp ⟨t, h⟩ k hk
    · rintro ⟨hfirst, hrest⟩
      obtain ⟨u, hu⟩ := exists_makeDirectory_iff.mpr hfirst
      have hsame : SameFiles s u := sameFiles_of_makeDirectory hu
      obtain ⟨t, ht⟩ := ih.mpr fun k hk => (hsame.fileIn k).trans (hrest k hk)
      exact ⟨t, Outcome.bind_eq_ok_iff.mpr ⟨u, hu, ht⟩⟩

theorem get?_of_makeWay (h : s.makeWay l parts = .ok t) (m : Location) :
    t.get? m = if m ∈ stopsFrom l parts then some .directory else s.get? m := by
  induction parts generalizing s l with
  | nil =>
    obtain rfl := Except.ok.inj h
    rw [stopsFrom, if_neg List.not_mem_nil]
  | cons part rest ih =>
    rw [makeWay] at h
    obtain ⟨u, hu, h⟩ := Outcome.bind_eq_ok_iff.mp h
    rw [ih h, get?_of_makeDirectory hu]
    change (if m ∈ stopsFrom (advance l part) rest then some Entry.directory
      else if m = advance l part then some Entry.directory else s.get? m) = _
    by_cases hrest : m ∈ stopsFrom (advance l part) rest
    · simp [stopsFrom, hrest]
    · simp [stopsFrom, hrest]

/-- The directories in front of a path's last part can be created exactly if no regular file stands
at one of their locations. -/
theorem exists_makeDirectories_iff : (∃ t, s.makeDirectories p.parent = .ok t) ↔
    ∀ k ∈ stopsFrom (s.startOf p) p.parts.dropLast, s.fileIn k = none :=
  exists_makeWay_iff

theorem get?_of_makeDirectories (h : s.makeDirectories p.parent = .ok t) (m : Location) :
    t.get? m = if m ∈ stopsFrom (s.startOf p) p.parts.dropLast then some .directory
      else s.get? m :=
  get?_of_makeWay h m

/-! ## Growing stores -/

/-- The store has all the directories of another one, and the same working directory. -/
structure Grows (s t : Store) : Prop where
  here : t.here = s.here
  directory : ∀ l, s.get? l = some .directory → t.get? l = some .directory

namespace Grows

theorem refl (s : Store) : Grows s s := ⟨rfl, fun _ h => h⟩

theorem trans (h : Grows s t) (h' : Grows t u) : Grows s u :=
  ⟨h'.here.trans h.here, fun l hl => h'.directory l (h.directory l hl)⟩

/-- A path that leads to its destination goes on to lead there. -/
theorem locate (h : Grows s t) (hlocate : s.locate p = .ok l) : t.locate p = .ok l := by
  rw [locate_eq_ok_iff] at hlocate ⊢
  rw [way_of_here h.here, destination_of_here h.here]
  exact ⟨fun k hk => h.directory k (hlocate.1 k hk), hlocate.2⟩

end Grows

theorem grows_of_makeDirectory (h : s.makeDirectory l = .ok t) : Grows s t := by
  refine ⟨(sameFiles_of_makeDirectory h).here, fun m hm => ?_⟩
  rw [get?_of_makeDirectory h, hm, ite_self]

theorem grows_of_makeDirectories (h : s.makeDirectories p.parent = .ok t) : Grows s t := by
  refine ⟨(sameFiles_of_makeDirectories h).here, fun l hl => ?_⟩
  rw [get?_of_makeDirectories h, hl, ite_self]

theorem grows_makeWayUpTo (s : Store) (l : Location) (parts : List String) :
    Grows s (s.makeWayUpTo l parts) := by
  induction parts generalizing s l with
  | nil => exact .refl s
  | cons part rest ih =>
    rw [makeWayUpTo]
    split
    · exact .refl s
    · rename_i made hmade
      exact (grows_of_makeDirectory hmade).trans (ih made _)

theorem grows_makeDirectoriesUpTo (s : Store) (p : Path) : Grows s (s.makeDirectoriesUpTo p) :=
  grows_makeWayUpTo s _ _

/-! ## Added directories -/

/-- The directories of a store are those of another one and some at the given locations. -/
def Adds (s t : Store) (added : List Location) : Prop :=
  ∀ l, t.get? l = some .directory → s.get? l = some .directory ∨ l ∈ added

namespace Adds

variable {added more : List Location}

theorem refl (s : Store) : Adds s s [] := fun _ h => Or.inl h

theorem trans (h : Adds s t added) (h' : Adds t u more) : Adds s u (added ++ more) := by
  intro l hl
  rw [List.mem_append]
  rcases h' l hl with hl | hl
  · exact (h l hl).imp_right Or.inl
  · exact Or.inr (Or.inr hl)

theorem mono (h : Adds s t added) (hsub : added ⊆ more) : Adds s t more :=
  fun l hl => (h l hl).imp_right fun hmem => hsub hmem

theorem put_file (h : Adds s t added) (hl : l ≠ []) (data : ByteArray) :
    Adds s (t.put l (.file data)) added := by
  intro m hm
  rw [get?_put hl] at hm
  by_cases heq : m = l
  · rw [if_pos heq] at hm
    cases hm
  · rw [if_neg heq] at hm
    exact h m hm

theorem erase (h : Adds s t added) (hl : l ≠ []) : Adds s (t.erase l) added := by
  intro m hm
  rw [get?_erase hl] at hm
  by_cases heq : m = l
  · rw [if_pos heq] at hm
    cases hm
  · rw [if_neg heq] at hm
    exact h m hm

end Adds

theorem adds_of_makeDirectory (h : s.makeDirectory l = .ok t) : Adds s t [l] := by
  intro m hm
  rw [get?_of_makeDirectory h] at hm
  by_cases heq : m = l
  · exact Or.inr (List.mem_singleton.mpr heq)
  · rw [if_neg heq] at hm
    exact Or.inl hm

theorem adds_makeWayUpTo (s : Store) (l : Location) (parts : List String) :
    Adds s (s.makeWayUpTo l parts) (stopsFrom l parts) := by
  induction parts generalizing s l with
  | nil => exact .refl s
  | cons part rest ih =>
    rw [makeWayUpTo]
    split
    · exact (Adds.refl s).mono (List.nil_subset _)
    · rename_i made hmade
      exact (adds_of_makeDirectory hmade).trans (ih made _)

theorem adds_makeDirectoriesUpTo (s : Store) (p : Path) :
    Adds s (s.makeDirectoriesUpTo p.parent) (s.way p) :=
  (adds_makeWayUpTo s _ _).mono (stopsFrom_subset_wayFrom _ _)

theorem adds_of_makeDirectories (h : s.makeDirectories p.parent = .ok t) :
    Adds s t (s.way p) := by
  intro m hm
  rw [get?_of_makeDirectories h] at hm
  by_cases hstop : m ∈ stopsFrom (s.startOf p) p.parts.dropLast
  · exact Or.inr (stopsFrom_subset_wayFrom _ _ hstop)
  · rw [if_neg hstop] at hm
    exact Or.inl hm

/-! ## Files at paths -/

/-- A path at which a file is found leads to its destination. -/
theorem locate_of_fileAt? (h : s.fileAt? p = some data) : s.locate p = .ok (s.destination p) := by
  cases hlocate : s.locate p with
  | error fault =>
    rw [fileAt?, entryAt, hlocate] at h
    cases h
  | ok l => rw [eq_destination_of_locate hlocate]

/-- A file is found at a path exactly if the path leads to it. -/
theorem fileAt?_eq_some_iff : s.fileAt? p = some data ↔
    s.locate p = .ok (s.destination p) ∧ s.fileIn (s.destination p) = some data := by
  constructor
  · exact fun h => ⟨locate_of_fileAt? h, fileIn_of_fileAt? h⟩
  · rintro ⟨hlocate, hfile⟩
    rw [fileAt?_of_locate hlocate, hfile]

/-- A file that keeps its bytes goes on to be found. -/
theorem Grows.fileAt? (h : Grows s t)
    (hkept : t.fileIn (s.destination p) = s.fileIn (s.destination p))
    (hfile : s.fileAt? p = some data) : t.fileAt? p = some data := by
  rw [fileAt?_eq_some_iff] at hfile ⊢
  rw [destination_of_here h.here, hkept]
  exact ⟨h.locate hfile.1, hfile.2⟩

end TypedClient.Store

import TypedClient.Store
import TypedClient.Proofs.Outcome

/-!
# The regular files of a store

Two stores hold the same if their regular files do: directories that come on the way hold no bytes.
Where a path leads depends on the directories that exist, since two points lead out of a directory
only if it is there.  Once all the directories on its way exist, it leads to one location, which can
be told from the working directory alone.

* `fileIn`: the bytes of the regular file at a location, with what the operations do to them.
* `SameFiles`: stores with the same regular files and the same working directory.
* `destination`: the location that a path leads to, if to any.
* `sameFiles_of_makeDirectories`, `fileIn_of_write`: creating directories changes no regular file,
  and writing a file no other one.
-/

namespace TypedClient.Store

variable {s t : Store} {l m : Location} {data : ByteArray} {p : Path}

/-! ## Regular files -/

/-- The bytes of the regular file at a location. -/
def fileIn (s : Store) (l : Location) : Option ByteArray :=
  match s.get? l with
  | some (.file data) => some data
  | _ => none

theorem fileIn_eq_none (h : s.get? l = none) : s.fileIn l = none := by
  rw [fileIn, h]

/-- The root is a directory. -/
theorem ne_nil_of_get?_ne (h : s.get? l ≠ some .directory) : l ≠ [] := by
  rintro rfl
  exact h (by rw [get?, if_pos rfl])

/-- Writing a file changes the bytes at its location only. -/
theorem fileIn_put_file (hl : l ≠ []) (m : Location) (data : ByteArray) :
    (s.put l (.file data)).fileIn m = if m = l then some data else s.fileIn m := by
  rw [fileIn, get?_put hl]
  by_cases hm : m = l
  · rw [if_pos hm, if_pos hm]
  · rw [if_neg hm, if_neg hm, fileIn]

/-- Erasing what is at a location takes away the bytes there only. -/
theorem fileIn_erase (hl : l ≠ []) (m : Location) :
    (s.erase l).fileIn m = if m = l then none else s.fileIn m := by
  rw [fileIn, get?_erase hl]
  by_cases hm : m = l
  · rw [if_pos hm, if_pos hm]
  · rw [if_neg hm, if_neg hm, fileIn]

/-! ## Stores with the same files -/

/-- The stores have the same regular files and the same working directory. -/
structure SameFiles (s t : Store) : Prop where
  here : t.here = s.here
  fileIn : ∀ l, t.fileIn l = s.fileIn l

namespace SameFiles

theorem refl (s : Store) : SameFiles s s := ⟨rfl, fun _ => rfl⟩

theorem trans {u : Store} (h : SameFiles s t) (h' : SameFiles t u) : SameFiles s u :=
  ⟨h'.here.trans h.here, fun l => (h'.fileIn l).trans (h.fileIn l)⟩

end SameFiles

theorem sameFiles_of_makeDirectory (h : s.makeDirectory l = .ok t) : SameFiles s t := by
  rw [makeDirectory] at h
  cases hget : s.get? l with
  | none =>
    rw [hget] at h
    obtain rfl := Except.ok.inj h
    have hl : l ≠ [] := ne_nil_of_get?_ne (by rw [hget]; exact (Option.some_ne_none _).symm)
    refine ⟨rfl, fun m => ?_⟩
    rw [fileIn, get?_put hl]
    by_cases hm : m = l
    · rw [if_pos hm, hm, fileIn_eq_none hget]
    · rw [if_neg hm, fileIn]
  | some entry =>
    rw [hget] at h
    cases entry with
    | directory =>
      obtain rfl := Except.ok.inj h
      exact .refl s
    | file data => cases h

theorem sameFiles_of_makeWay {parts : List String} (h : s.makeWay l parts = .ok t) :
    SameFiles s t := by
  induction parts generalizing s l with
  | nil =>
    obtain rfl := Except.ok.inj h
    exact .refl s
  | cons part rest ih =>
    rw [makeWay] at h
    obtain ⟨u, hu, h⟩ := Outcome.bind_eq_ok_iff.mp h
    exact (sameFiles_of_makeDirectory hu).trans (ih h)

/-- Creating directories changes no regular file. -/
theorem sameFiles_of_makeDirectories (h : s.makeDirectories p = .ok t) : SameFiles s t :=
  sameFiles_of_makeWay h

theorem sameFiles_makeWayUpTo (s : Store) (l : Location) (parts : List String) :
    SameFiles s (s.makeWayUpTo l parts) := by
  induction parts generalizing s l with
  | nil => exact .refl s
  | cons part rest ih =>
    rw [makeWayUpTo]
    split
    · exact .refl s
    · rename_i made hmade
      exact (sameFiles_of_makeDirectory hmade).trans (ih made _)

/-- Neither does creating them up to a fault. -/
theorem sameFiles_makeDirectoriesUpTo (s : Store) (p : Path) :
    SameFiles s (s.makeDirectoriesUpTo p) :=
  sameFiles_makeWayUpTo s _ _

/-! ## Where paths lead -/

/-- The location that one part of a path leads to. -/
def advance (l : Location) (part : String) : Location :=
  if part = ".." then l.dropLast else l ++ [part]

/-- The location that a path leads to, if all directories on its way exist. -/
def destination (s : Store) (p : Path) : Location :=
  p.parts.foldl advance (s.startOf p)

theorem eq_foldl_of_walk {parts : List String} (h : s.walk l parts = .ok m) :
    m = parts.foldl advance l := by
  induction parts generalizing l with
  | nil => exact (Except.ok.inj h).symm
  | cons part rest ih =>
    rw [walk] at h
    cases hget : s.get? l with
    | none =>
      rw [hget] at h
      cases h
    | some entry =>
      rw [hget] at h
      cases entry with
      | file data => cases h
      | directory => exact ih h

/-- A path that leads anywhere leads to its destination. -/
theorem eq_destination_of_locate (h : s.locate p = .ok l) : l = s.destination p :=
  eq_foldl_of_walk h

/-- Where paths lead depends on the working directory alone. -/
theorem destination_of_here (h : t.here = s.here) (p : Path) :
    t.destination p = s.destination p := by
  rw [destination, destination, startOf, startOf, h]

theorem SameFiles.destination (h : SameFiles s t) (p : Path) :
    t.destination p = s.destination p :=
  destination_of_here h.here p

/-- The file at a path is the one at the location that the path leads to. -/
theorem fileAt?_of_locate (h : s.locate p = .ok l) : s.fileAt? p = s.fileIn l := by
  cases hget : s.get? l with
  | none =>
    have hentry : s.entryAt p = .error .missing := by
      simp only [entryAt, h, bind, Except.bind, hget]
      rfl
    rw [fileAt?, hentry, fileIn, hget]
  | some entry =>
    have hentry : s.entryAt p = .ok entry := by
      simp only [entryAt, h, bind, Except.bind, hget]
      rfl
    rw [fileAt?, hentry, fileIn, hget]
    cases entry <;> rfl

/-- A file that is found at a path is at the path's destination. -/
theorem fileIn_of_fileAt? (h : s.fileAt? p = some data) :
    s.fileIn (s.destination p) = some data := by
  cases hlocate : s.locate p with
  | error fault =>
    rw [fileAt?, entryAt, hlocate] at h
    cases h
  | ok l => rw [← eq_destination_of_locate hlocate, ← fileAt?_of_locate hlocate, h]

/-- Writing the file at a path changes no other file. -/
theorem fileIn_of_write (h : s.write p data = .ok t) (hm : m ≠ s.destination p) :
    t.fileIn m = s.fileIn m := by
  rw [write] at h
  obtain ⟨l, hlocate, h⟩ := Outcome.bind_eq_ok_iff.mp h
  rw [← eq_destination_of_locate hlocate] at hm
  split at h
  · cases h
  · rename_i hnotDirectory
    obtain rfl := Except.ok.inj h
    rw [fileIn_put_file (ne_nil_of_get?_ne hnotDirectory), if_neg hm]

end TypedClient.Store

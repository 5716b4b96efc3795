import TypedClient.Path

/-!
# Stores of files

A store holds files and directories at locations.  A location is the sequence of names that leads to
it from the root; a path is looked up from the working directory, and every part of it but the last
has to lead through a directory that exists.

* `Store`: the files and directories with the working directory.
* `Store.get?`, `Store.put`, `Store.erase`: what is at a location.
* `Store.locate`: where a path leads.
* `Store.read`, `Store.makeDirectories`: operations that may fail, with the `Store.Fault`s.
* `Store.get?_put`, `Store.get?_erase`: what each operation does to what is at the locations.
-/

namespace TypedClient

/-- The names that lead from the root to a place in a store. -/
abbrev Location := List String

/-- What is at a location. -/
inductive Entry where
  | file (data : ByteArray)
  | directory

instance : DecidableEq Entry
  | .file data, .file other =>
    match ByteArray.instDecidableEq data other with
    | .isTrue h => .isTrue (congrArg Entry.file h)
    | .isFalse h => .isFalse fun heq => h (Entry.file.inj heq)
  | .directory, .directory => .isTrue rfl
  | .file _, .directory => .isFalse nofun
  | .directory, .file _ => .isFalse nofun

/-- The files and directories that exist, and the working directory.  The root always exists. -/
structure Store where
  entries : List (Location × Entry)
  here : Location

namespace Store

/-- Why an operation on a store fails. -/
inductive Fault where
  | missing
  | notDirectory
  | isDirectory
  | exists
  | refused
deriving Repr, DecidableEq

/-- A store that holds the working directory and nothing else. -/
def empty (here : Location) : Store :=
  ⟨(List.range here.length).map fun n => (here.take (n + 1), .directory), here⟩

/-! ## Locations -/

/-- What is at a location of a list of entries. -/
def lookup (l : Location) : List (Location × Entry) → Option Entry
  | [] => none
  | (m, e) :: rest => if m = l then some e else lookup l rest

/-- What is at a location. -/
def get? (s : Store) (l : Location) : Option Entry :=
  if l = [] then some .directory else lookup l s.entries

/-- Replaces what is at a location of a list of entries, or adds it. -/
def set (l : Location) (e : Entry) : List (Location × Entry) → List (Location × Entry)
  | [] => [(l, e)]
  | (m, f) :: rest => if m = l then (l, e) :: rest else (m, f) :: set l e rest

/-- The store with something at a location. -/
def put (s : Store) (l : Location) (e : Entry) : Store :=
  { s with entries := set l e s.entries }

/-- The store with nothing at a location. -/
def erase (s : Store) (l : Location) : Store :=
  { s with entries := s.entries.filter fun p => !decide (p.1 = l) }

theorem lookup_set (l m : Location) (e : Entry) (entries : List (Location × Entry)) :
    lookup m (set l e entries) = if m = l then some e else lookup m entries := by
  induction entries with
  | nil => simp [set, lookup, eq_comm]
  | cons p rest ih =>
    obtain ⟨k, f⟩ := p
    by_cases hk : k = l
    · subst hk
      by_cases hm : m = k <;> simp [set, lookup, hm, eq_comm]
    · by_cases hm : m = k
      · subst hm
        simp [set, lookup, hk]
      · simp [set, lookup, hk, ih, Ne.symm hm]

theorem lookup_filter (l m : Location) (entries : List (Location × Entry)) :
    lookup m (entries.filter fun p => !decide (p.1 = l)) =
      if m = l then none else lookup m entries := by
  induction entries with
  | nil => simp [lookup]
  | cons p rest ih =>
    obtain ⟨k, f⟩ := p
    by_cases hk : k = l
    · subst hk
      by_cases hm : m = k <;> simp_all [lookup, eq_comm]
    · by_cases hm : m = k
      · subst hm
        simp [lookup, hk]
      · simp_all [lookup, eq_comm]

/-- Writing at a location changes what is there and nothing else. -/
theorem get?_put {s : Store} {l : Location} (hl : l ≠ []) (m : Location) (e : Entry) :
    (s.put l e).get? m = if m = l then some e else s.get? m := by
  by_cases hm : m = []
  · subst hm
    simp [get?, hl.symm]
  · simp [get?, put, hm, lookup_set]

/-- Erasing what is at a location changes nothing else. -/
theorem get?_erase {s : Store} {l : Location} (hl : l ≠ []) (m : Location) :
    (s.erase l).get? m = if m = l then none else s.get? m := by
  by_cases hm : m = []
  · subst hm
    simp [get?, hl.symm]
  · simp [get?, erase, hm, lookup_filter]

/-! ## Paths -/

/-- The location that parts of a path lead to from a location.  Two points lead to the directory
around; from the root they lead nowhere else. -/
def walk (s : Store) : Location → List String → Except Fault Location
  | l, [] => .ok l
  | l, part :: rest =>
    match s.get? l with
    | none => .error .missing
    | some (.file _) => .error .notDirectory
    | some .directory => walk s (if part = ".." then l.dropLast else l ++ [part]) rest

/-- Where a path starts. -/
def startOf (s : Store) (p : Path) : Location :=
  if p.isAbsolute then [] else s.here

/-- Where a path leads, whether or not anything is there. -/
def locate (s : Store) (p : Path) : Except Fault Location :=
  s.walk (s.startOf p) p.parts

/-- What is where a path leads. -/
def entryAt (s : Store) (p : Path) : Except Fault Entry := do
  match s.get? (← s.locate p) with
  | some e => return e
  | none => throw .missing

/-- The bytes of the file at a path, if there is one. -/
def fileAt? (s : Store) (p : Path) : Option ByteArray :=
  match s.entryAt p with
  | .ok (.file data) => some data
  | _ => none

/-- The path of the working directory. -/
def herePath (s : Store) : Path := ⟨"/", s.here⟩

/-! ## Operations on paths -/

/-- Creates the directory at a location unless it exists. -/
def makeDirectory (s : Store) (l : Location) : Except Fault Store :=
  match s.get? l with
  | some .directory => .ok s
  | some (.file _) => .error .exists
  | none => .ok (s.put l .directory)

/-- Creates the directories that parts of a path lead through from a location. -/
def makeWay (s : Store) : Location → List String → Except Fault Store
  | _, [] => .ok s
  | l, part :: rest => do
    let next := if part = ".." then l.dropLast else l ++ [part]
    makeWay (← s.makeDirectory next) next rest

/-- Creates the directory at a path and all directories that lead to it. -/
def makeDirectories (s : Store) (p : Path) : Except Fault Store :=
  s.makeWay (s.startOf p) p.parts

/-- The store with the directories that parts of a path lead through from a location, up to the
first that cannot be created. -/
def makeWayUpTo (s : Store) : Location → List String → Store
  | _, [] => s
  | l, part :: rest =>
    let next := if part = ".." then l.dropLast else l ++ [part]
    match s.makeDirectory next with
    | .error _ => s
    | .ok made => makeWayUpTo made next rest

/-- What is there after the directory at a path could not be created: those in front of the fault
are. -/
def makeDirectoriesUpTo (s : Store) (p : Path) : Store :=
  s.makeWayUpTo (s.startOf p) p.parts

/-- The bytes of the file at a path. -/
def read (s : Store) (p : Path) : Except Fault ByteArray := do
  match ← s.entryAt p with
  | .file data => return data
  | .directory => throw .isDirectory

/-- Writes the bytes of the file at a path, whose directory has to exist. -/
def write (s : Store) (p : Path) (data : ByteArray) : Except Fault Store := do
  let l ← s.locate p
  match s.get? l with
  | some .directory => throw .isDirectory
  | _ => return s.put l (.file data)

/-- Removes the file at a path. -/
def remove (s : Store) (p : Path) : Except Fault Store := do
  match ← s.entryAt p with
  | .directory => throw .isDirectory
  | .file _ => return s.erase (← s.locate p)

/-- The entries of a store that another one does not have. -/
def changesFrom (before after : Store) : List (Location × Entry) :=
  after.entries.filter fun (l, e) => before.get? l ≠ some e

/-- The files below a location, each with the names that lead to it from there. -/
def filesBelow (s : Store) (l : Location) : List (Location × ByteArray) :=
  s.entries.filterMap fun (m, e) =>
    match e with
    | .file data => if l.isPrefixOf m then some (m.drop l.length, data) else none
    | .directory => none

end Store

end TypedClient

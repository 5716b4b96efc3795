import TypedClient.Problem
import TypedClient.Store
import TypedClient.Text.Encoding

/-!
# Bringing files up to date

A file that already reads as its text is left alone.  Any other file is replaced in steps: its
directory is created, a temporary file beside it is created, filled, flushed, synced and closed, and
then takes its place.  If a step fails, the temporary file is removed, so the file keeps its bytes
or stays absent.

Besides the faults that follow from what is in the store, any step may be refused; which ones are is
a parameter.  A temporary file that is open when a step fails is closed before it is removed.
Closing it writes what is not written yet, so it may be refused for the very reason for which the
step was; then the temporary file is not removed at all.

The texts are sequences of Unicode scalar values, which always have bytes in UTF-8.  Lone surrogates
are read as replacement characters, so that a text with one, which could not be written, does not
occur here.

* `Store.Step`, `Store.Refusals`: the steps, and which of them are refused.
* `Store.prepare`: the steps up to the creation of a temporary file.
* `Store.discard`, `Store.abandon`: what is done after a step that failed.
* `Store.replaceFile`: the replacement of one file.
* `Store.writeAll`: all files of a run, up to the first fault.
-/

namespace TypedClient.Store

/-- The steps in which a file is brought up to date, and those that follow a step which failed once
there is a temporary file. -/
inductive Step where
  | read
  | makeDirectory
  | createTemporary
  | fill
  | flush
  | sync
  | close
  | rename
  /-- Closing the temporary file that is still open. -/
  | abandon
  /-- Removing the temporary file. -/
  | remove
deriving Repr, DecidableEq

/-- Which steps are refused for which file. -/
abbrev Refusals := Path → Step → Bool

/-- No step is refused. -/
def noRefusals : Refusals := fun _ _ => false

/-- Why a file is not brought up to date. -/
inductive WriteFault where
  | store (fault : Fault)
  /-- The file that is there is not UTF-8. -/
  | undecodable
deriving Repr, DecidableEq

/-! ## Temporary files -/

/-- The names that a temporary file beside a file may have. -/
def temporaryName (name : String) (n : Nat) : String :=
  "." ++ name ++ "." ++ toString n ++ ".tmp"

/-- A location in a directory for a temporary file, where nothing is yet. -/
def temporaryIn? (s : Store) (directory : Location) (name : String) : Option Location :=
  ((List.range (s.entries.length + 1)).map fun n => directory ++ [temporaryName name n]).find?
    fun l => (s.get? l).isNone

/-- There is nothing at the location for a temporary file. -/
theorem get?_of_temporaryIn? {s : Store} {directory l : Location} {name : String}
    (h : s.temporaryIn? directory name = some l) : s.get? l = none := by
  simpa using List.find?_some h

/-- The location for a temporary file is in the directory. -/
theorem temporaryIn?_ne_nil {s : Store} {directory l : Location} {name : String}
    (h : s.temporaryIn? directory name = some l) : l ≠ [] := by
  have hm := List.mem_of_find?_eq_some h
  simp only [List.mem_map] at hm
  obtain ⟨n, _, rfl⟩ := hm
  simp

/-! ## One file -/

/-- A temporary file, and the file whose place it is to take. -/
structure Workplace where
  temporary : Location
  target : Location

/-- The store with the directories in front of a file, and where a temporary file is created for it;
or the fault that stopped this. -/
def prepare (refuses : Step → Bool) (s : Store) (p : Path) : Store × Except Fault Workplace :=
  if refuses .makeDirectory then (s, .error .refused)
  else
    match s.makeDirectories p.parent with
    | .error fault => (s.makeDirectoriesUpTo p.parent, .error fault)
    | .ok ready =>
      match ready.locate p.parent, ready.locate p with
      | .ok directory, .ok target =>
        match ready.temporaryIn? directory p.name with
        | none => (ready, .error .exists)
        | some temporary =>
          if refuses .createTemporary then (ready, .error .refused)
          else (ready, .ok ⟨temporary, target⟩)
      | .error fault, _ => (ready, .error fault)
      | _, .error fault => (ready, .error fault)

/-- The store after a step that failed when the temporary file was closed: it is removed, unless
that is refused. -/
def discard (s : Store) (refuses : Step → Bool) (temporary : Location) : Store :=
  if refuses .remove then s else s.erase temporary

/-- The store after a step that failed when the temporary file was open: it is closed and removed.
If closing it is refused, it is not removed. -/
def abandon (s : Store) (refuses : Step → Bool) (temporary : Location) : Store :=
  if refuses .abandon then s else s.discard refuses temporary

/-- The store and the fault after the temporary file took the place of the file at `target`, or did
not. -/
def takePlace (refuses : Step → Bool) (s : Store) (temporary target : Location) (data : ByteArray) :
    Store × Option Fault :=
  match s.get? target with
  | some .directory => (s.discard refuses temporary, some .isDirectory)
  | _ =>
    if refuses .rename then (s.discard refuses temporary, some .refused)
    else ((s.erase temporary).put target (.file data), none)

/-- The store and the fault after the temporary file was filled and took the place of the file at
`target`, or did not.  A temporary file that could not be filled is taken to be empty. -/
def fillAndTakePlace (refuses : Step → Bool) (s : Store) (temporary target : Location)
    (data : ByteArray) : Store × Option Fault :=
  let created := s.put temporary (.file .empty)
  let filled := created.put temporary (.file data)
  if refuses .fill then (created.abandon refuses temporary, some .refused)
  else if refuses .flush || refuses .sync then (filled.abandon refuses temporary, some .refused)
  -- what could not be closed is not closed once more
  else if refuses .close then (filled.discard refuses temporary, some .refused)
  else takePlace refuses filled temporary target data

/-- The store after the file at a path was replaced, or after the fault that stopped this. -/
def replaceFile (refuses : Step → Bool) (s : Store) (p : Path) (data : ByteArray) :
    Store × Option Fault :=
  match prepare refuses s p with
  | (ready, .error fault) => (ready, some fault)
  | (ready, .ok work) => fillAndTakePlace refuses ready work.temporary work.target data

/-- Does the file at a path read as a text?  Nothing there reads as none. -/
def readsAs (refuses : Step → Bool) (s : Store) (p : Path) (text : String) :
    Except WriteFault Bool :=
  match s.fileAt? p with
  | none => .ok false
  | some data =>
    if refuses .read then .error (.store .refused)
    else
      match Text.readLines? data with
      | none => .error .undecodable
      | some found => .ok (found == text)

/-- The store after the file at a path was brought up to date, and whether it was replaced for
that. -/
def bringUpToDate (refuses : Step → Bool) (s : Store) (p : Path) (text : String) :
    Store × Except WriteFault Bool :=
  match readsAs refuses s p text with
  | .error fault => (s, .error fault)
  | .ok true => (s, .ok false)
  | .ok false =>
    match replaceFile refuses s p (Text.encode text) with
    | (after, none) => (after, .ok true)
    | (after, some fault) => (after, .error (.store fault))

/-! ## All files -/

/-- What became of the files of a run: the store, the paths of the files that were replaced, and the
fault that stopped it with the path of the file at which it did. -/
structure Written where
  store : Store
  changed : List Path
  fault : Option (Path × WriteFault)

/-- The path of a file of a run. -/
def targetPath (directory : Path) (name : String) : Path :=
  directory.join (Path.ofText name)

/-- What became of the files, given what became of the first one, at the path, and how the run goes
on behind it. -/
def goOn (p : Path) (next : Store → Written) : Store × Except WriteFault Bool → Written
  | (after, .error fault) => ⟨after, [], some (p, fault)⟩
  | (after, .ok isChanged) =>
    let more := next after
    { more with changed := if isChanged then p :: more.changed else more.changed }

/-- Brings the files of a run up to date, in order, up to the first fault. -/
def writeAll (refuses : Refusals) (s : Store) (directory : Path) : List (String × String) → Written
  | [] => ⟨s, [], none⟩
  | (name, text) :: rest =>
    let p := targetPath directory name
    goOn p (fun after => writeAll refuses after directory rest)
      (bringUpToDate (refuses p) s p text)

/-- The wording for a fault of a store. -/
def Fault.text : Fault → String
  | .missing => "no such file or directory"
  | .notDirectory => "not a directory"
  | .isDirectory => "is a directory"
  | .exists => "file exists"
  | .refused => "operation not permitted"

/-- The problem that is reported for a file that cannot be written. -/
def writeProblem (p : Path) (fault : Fault) : Problem :=
  { kind := .general, message := "Cannot write " ++ p.text ++ ": " ++ fault.text }

end TypedClient.Store

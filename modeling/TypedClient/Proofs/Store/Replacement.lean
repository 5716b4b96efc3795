import TypedClient.Proofs.Store.Ways
import TypedClient.Store.Writing

/-!
# Replacing one file

A file is replaced by a temporary file beside it, so until the temporary file takes its place the
store differs from what it was at the temporary file's location only, where nothing was before, and
in directories on the way to the file.  Removing the temporary file gives back the files that were
there.

But the temporary file is closed before it is removed, if the step that failed left it open.  Where
closing it is refused as well, as on a disk that is full, it is never removed and stays.

* `Beside`, `LeftOver`: a store with a temporary file beside the files of another one.
* `Replaced`, `Fails`: what a replacement leaves, and what one leaves that failed.
* `leaves_replaceFile`, `adds_replaceFile`: every replacement ends in one of the two ways, and makes
  directories on the way to its file only.
* `textAt?`, `Reads`: what a run sees at a path.
* `StaysOpen`: the condition under which the temporary file stays.
* `Brings`: what bringing one file up to date does; `brings_bringUpToDate`: it does one of these.
-/

namespace TypedClient.Store

variable {s t u : Store} {l temporary target : Location} {data : ByteArray} {p : Path}
  {text : String} {refuses : Step → Bool}

/-! ## The temporary file -/

/-- The store is another one with something at the location of a temporary file, where nothing
was. -/
structure Beside (s u : Store) (temporary : Location) : Prop where
  ne_nil : temporary ≠ []
  free : s.get? temporary = none
  here : u.here = s.here
  get? : ∀ m, m ≠ temporary → u.get? m = s.get? m

/-- The store has the regular files of another one, and one more. -/
structure LeftOver (s t : Store) (l : Location) : Prop where
  here : t.here = s.here
  free : s.fileIn l = none
  stays : t.fileIn l ≠ none
  fileIn : ∀ m, m ≠ l → t.fileIn m = s.fileIn m

namespace Beside

theorem put (h : Beside s u temporary) (e : Entry) : Beside s (u.put temporary e) temporary := by
  refine ⟨h.ne_nil, h.free, h.here, fun m hm => ?_⟩
  rw [get?_put h.ne_nil, if_neg hm]
  exact h.get? m hm

/-- Without the temporary file the files are what they were. -/
theorem erase (h : Beside s u temporary) : SameFiles s (u.erase temporary) := by
  refine ⟨h.here, fun m => ?_⟩
  rw [fileIn_erase h.ne_nil]
  by_cases hm : m = temporary
  · rw [if_pos hm, hm, fileIn_eq_none h.free]
  · rw [if_neg hm, fileIn, h.get? m hm, fileIn]

/-- With the temporary file there is one more. -/
theorem leftOver (h : Beside s u temporary) (data : ByteArray) :
    LeftOver s (u.put temporary (.file data)) temporary := by
  refine ⟨h.here, fileIn_eq_none h.free, ?_, fun m hm => ?_⟩
  · rw [fileIn_put_file h.ne_nil, if_pos rfl]
    exact Option.some_ne_none data
  · rw [fileIn_put_file h.ne_nil, if_neg hm, fileIn, h.get? m hm, fileIn]

end Beside

/-! ## One file -/

/-- The store is another one with the file at a location replaced, and with all of its
directories. -/
structure Replaced (s t : Store) (l : Location) (data : ByteArray) : Prop where
  grows : Grows s t
  fileIn : ∀ m, t.fileIn m = if m = l then some data else s.fileIn m

/-- What a replacement leaves that failed: the files that were there, and one more if the temporary
file stays open. -/
structure Fails (s t : Store) (staysOpen : Prop) : Prop where
  cleaned : ¬ staysOpen → SameFiles s t
  leftOver : staysOpen → ∃ l, LeftOver s t l

/-- A step is refused while the temporary file is open, and closing it then is refused too. -/
structure Sticks (refuses : Step → Bool) : Prop where
  failed : refuses .fill = true ∨ refuses .flush = true ∨ refuses .sync = true
  unclosed : refuses .abandon = true

/-- What an attempt to replace a file leaves: the file replaced, or what is left by one that failed,
if the temporary file could be removed. -/
def Leaves (refuses : Step → Bool) (s : Store) (l : Location) (data : ByteArray)
    (staysOpen : Prop) : Store × Option Fault → Prop
  | (t, none) => Replaced s t l data
  | (t, some _) => refuses .remove = false → Fails s t staysOpen

/-- A step that fails before there is a temporary file, or behind closing it, leaves the files that
were there. -/
theorem Fails.of_sameFiles {staysOpen : Prop} (hnot : ¬ staysOpen) (h : SameFiles s t) :
    Fails s t staysOpen :=
  ⟨fun _ => h, fun hstays => absurd hstays hnot⟩

theorem Beside.fails_discard (h : Beside s u temporary) {staysOpen : Prop} (hnot : ¬ staysOpen)
    (hremove : refuses .remove = false) : Fails s (u.discard refuses temporary) staysOpen := by
  rw [discard, hremove, if_neg Bool.false_ne_true]
  exact .of_sameFiles hnot h.erase

/-- A step that fails while the temporary file is open leaves it there exactly if it cannot be
closed. -/
theorem Beside.fails_abandon (h : Beside s u temporary) (data : ByteArray)
    (hfailed : refuses .fill = true ∨ refuses .flush = true ∨ refuses .sync = true)
    (hremove : refuses .remove = false) :
    Fails s ((u.put temporary (.file data)).abandon refuses temporary) (Sticks refuses) := by
  by_cases hunclosed : refuses .abandon = true
  · rw [abandon, if_pos hunclosed]
    exact ⟨fun hnot => absurd ⟨hfailed, hunclosed⟩ hnot, fun _ => ⟨temporary, h.leftOver data⟩⟩
  · rw [abandon, if_neg hunclosed]
    exact (h.put _).fails_discard (fun hsticks => hunclosed hsticks.unclosed) hremove

theorem leaves_takePlace (h : Beside s u temporary) (hnot : ¬ Sticks refuses) :
    Leaves refuses s target data (Sticks refuses) (takePlace refuses u temporary target data) := by
  rw [takePlace]
  split
  · exact h.fails_discard hnot
  · rename_i hnotDirectory
    by_cases hrefused : refuses .rename = true
    · rw [if_pos hrefused]
      exact h.fails_discard hnot
    · rw [if_neg hrefused]
      have htarget : target ≠ [] := ne_nil_of_get?_ne hnotDirectory
      refine ⟨⟨h.here, fun m hm => ?_⟩, fun m => ?_⟩
      · have htemporary : m ≠ temporary := by
          rintro rfl
          rw [h.free] at hm
          cases hm
        have hne : m ≠ target := by
          rintro rfl
          exact hnotDirectory ((h.get? m htemporary).trans hm)
        rw [get?_put htarget, if_neg hne, get?_erase h.ne_nil, if_neg htemporary,
          h.get? m htemporary, hm]
      · rw [fileIn_put_file htarget, h.erase.fileIn]

theorem leaves_fillAndTakePlace (h : Beside s u temporary) :
    Leaves refuses s target data (Sticks refuses)
      (fillAndTakePlace refuses u temporary target data) := by
  have hcreated : Beside s (u.put temporary (.file .empty)) temporary := h.put _
  have hfilled : Beside s ((u.put temporary (.file .empty)).put temporary (.file data)) temporary :=
    hcreated.put _
  rw [fillAndTakePlace]
  by_cases hfill : refuses .fill = true
  · rw [if_pos hfill]
    exact h.fails_abandon _ (Or.inl hfill)
  · rw [if_neg hfill]
    by_cases hflush : (refuses .flush || refuses .sync) = true
    · rw [if_pos hflush]
      exact hcreated.fails_abandon _ (Or.inr (Bool.or_eq_true_iff.mp hflush))
    · rw [if_neg hflush]
      have hnot : ¬ Sticks refuses := fun hsticks =>
        hsticks.failed.elim hfill fun hfailed => hflush (Bool.or_eq_true_iff.mpr hfailed)
      by_cases hclose : refuses .close = true
      · rw [if_pos hclose]
        exact hfilled.fails_discard hnot
      · rw [if_neg hclose]
        exact leaves_takePlace hfilled hnot

/-- None of the steps with a temporary file makes a directory. -/
theorem Adds.discard {added : List Location} (h : Adds s u added) (hne : temporary ≠ []) :
    Adds s (u.discard refuses temporary) added := by
  rw [Store.discard]
  split
  · exact h
  · exact h.erase hne

theorem Adds.abandon {added : List Location} (h : Adds s u added) (hne : temporary ≠ []) :
    Adds s (u.abandon refuses temporary) added := by
  rw [Store.abandon]
  split
  · exact h
  · exact h.discard hne

theorem Adds.takePlace {added : List Location} (h : Adds s u added) (hne : temporary ≠ []) :
    Adds s (takePlace refuses u temporary target data).1 added := by
  rw [Store.takePlace]
  split
  · exact h.discard hne
  · rename_i hnotDirectory
    split
    · exact h.discard hne
    · exact (h.erase hne).put_file (ne_nil_of_get?_ne hnotDirectory) _

theorem Adds.fillAndTakePlace {added : List Location} (h : Adds s u added) (hne : temporary ≠ []) :
    Adds s (fillAndTakePlace refuses u temporary target data).1 added := by
  have hcreated : Adds s (u.put temporary (.file .empty)) added := h.put_file hne _
  have hfilled : Adds s ((u.put temporary (.file .empty)).put temporary (.file data)) added :=
    hcreated.put_file hne _
  rw [Store.fillAndTakePlace]
  split
  · exact hcreated.abandon hne
  · split
    · exact hfilled.abandon hne
    · split
      · exact hfilled.discard hne
      · exact hfilled.takePlace hne

/-- The steps in front of a replacement change nothing about what it leaves. -/
theorem Leaves.behind {staysOpen : Prop} {outcome : Store × Option Fault}
    (h : Leaves refuses t l data staysOpen outcome) (hgrows : Grows s t) (hfiles : SameFiles s t) :
    Leaves refuses s l data staysOpen outcome := by
  obtain ⟨u, fault⟩ := outcome
  cases fault with
  | none =>
    refine ⟨hgrows.trans h.grows, fun m => ?_⟩
    rw [h.fileIn, hfiles.fileIn]
  | some fault =>
    intro hremove
    obtain ⟨hcleaned, hleftOver⟩ := h hremove
    refine ⟨fun hnot => hfiles.trans (hcleaned hnot), fun hstays => ?_⟩
    obtain ⟨m, hover⟩ := hleftOver hstays
    refine ⟨m, hover.here.trans hfiles.here, by rw [← hfiles.fileIn, hover.free], hover.stays,
      fun k hk => ?_⟩
    rw [hover.fileIn k hk, hfiles.fileIn]

/-- What comes before a file is replaced: directories are created on the way to it, and no file
changes.  Nothing is at the location for the temporary file, and the target is where the path
leads. -/
structure Prepares (s : Store) (p : Path) (outcome : Store × Except Fault Workplace) : Prop where
  grows : Grows s outcome.1
  adds : Adds s outcome.1 (s.way p)
  files : SameFiles s outcome.1
  beside : ∀ work, outcome.2 = .ok work → Beside outcome.1 outcome.1 work.temporary
  target : ∀ work, outcome.2 = .ok work → work.target = s.destination p

theorem Prepares.of_error {fault : Fault} (hgrows : Grows s t) (hadds : Adds s t (s.way p))
    (hfiles : SameFiles s t) : Prepares s p (t, .error fault) :=
  ⟨hgrows, hadds, hfiles, nofun, nofun⟩

theorem prepares_prepare (refuses : Step → Bool) (s : Store) (p : Path) :
    Prepares s p (prepare refuses s p) := by
  rw [prepare]
  by_cases hrefused : refuses .makeDirectory = true
  · rw [if_pos hrefused]
    exact .of_error (.refl s) ((Adds.refl s).mono (List.nil_subset _)) (.refl s)
  · rw [if_neg hrefused]
    cases hmade : s.makeDirectories p.parent with
    | error fault =>
      exact .of_error (grows_makeDirectoriesUpTo s _) (adds_makeDirectoriesUpTo s p)
        (sameFiles_makeDirectoriesUpTo s _)
    | ok ready =>
      have hgrows : Grows s ready := grows_of_makeDirectories hmade
      have hadds : Adds s ready (s.way p) := adds_of_makeDirectories hmade
      have hfiles : SameFiles s ready := sameFiles_of_makeDirectories hmade
      dsimp only
      split
      · rename_i directory target hdirectory htarget
        split
        · exact .of_error hgrows hadds hfiles
        · rename_i temporary htemporary
          by_cases hcreate : refuses .createTemporary = true
          · rw [if_pos hcreate]
            exact .of_error hgrows hadds hfiles
          · rw [if_neg hcreate]
            refine ⟨hgrows, hadds, hfiles, fun work hwork => ?_, fun work hwork => ?_⟩
            · obtain rfl := Except.ok.inj hwork
              exact ⟨temporaryIn?_ne_nil htemporary, get?_of_temporaryIn? htemporary, rfl,
                fun _ _ => rfl⟩
            · obtain rfl := Except.ok.inj hwork
              rw [← hfiles.destination]
              exact eq_destination_of_locate htarget
      · exact .of_error hgrows hadds hfiles
      · exact .of_error hgrows hadds hfiles

/-- The file at a path is replaced, or the files are left that were there, with one more if the
temporary file stays open. -/
theorem leaves_replaceFile (refuses : Step → Bool) (s : Store) (p : Path) (data : ByteArray) :
    Leaves refuses s (s.destination p) data
      ((∃ work, (prepare refuses s p).2 = .ok work) ∧ Sticks refuses)
      (replaceFile refuses s p data) := by
  have hprepares := prepares_prepare refuses s p
  rw [replaceFile]
  rcases hprepare : prepare refuses s p with ⟨ready, fault | work⟩
  · rw [hprepare] at hprepares
    exact fun _ => .of_sameFiles (fun h => nomatch h.1) hprepares.files
  · rw [hprepare] at hprepares
    rw [and_iff_right ⟨work, rfl⟩, ← hprepares.target work rfl]
    exact (leaves_fillAndTakePlace (hprepares.beside work rfl)).behind hprepares.grows
      hprepares.files

/-- Directories are made on the way to the file only. -/
theorem adds_replaceFile (refuses : Step → Bool) (s : Store) (p : Path) (data : ByteArray) :
    Adds s (replaceFile refuses s p data).1 (s.way p) := by
  have hprepares := prepares_prepare refuses s p
  rw [replaceFile]
  rcases hprepare : prepare refuses s p with ⟨ready, fault | work⟩
  · rw [hprepare] at hprepares
    exact hprepares.adds
  · rw [hprepare] at hprepares
    exact hprepares.adds.fillAndTakePlace (hprepares.beside work rfl).ne_nil

/-- The text that a run sees at a path: that of the file there, with unified line ends. -/
def textAt? (s : Store) (p : Path) : Option String :=
  (s.fileAt? p).bind Text.readLines?

/-- The file at a location reads as a text. -/
def Reads (s : Store) (l : Location) (text : String) : Prop :=
  ∃ data, s.fileIn l = some data ∧ Text.readLines? data = some text

/-- What a run sees at a path is what the file at its destination reads as. -/
theorem reads_of_textAt? (h : s.textAt? p = some text) : Reads s (s.destination p) text := by
  obtain ⟨data, hfile, hread⟩ := Option.bind_eq_some_iff.mp h
  exact ⟨data, fileIn_of_fileAt? hfile, hread⟩

/-- A run that can read a file tells whether it reads as its text. -/
theorem textAt?_of_readsAs {isRead : Bool} (h : readsAs refuses s p text = .ok isRead) :
    isRead = true ↔ s.textAt? p = some text := by
  rw [readsAs] at h
  rw [textAt?]
  cases hfile : s.fileAt? p with
  | none =>
    rw [hfile] at h
    obtain rfl := Except.ok.inj h
    exact iff_of_false Bool.false_ne_true (Option.some_ne_none _).symm
  | some data =>
    rw [hfile] at h
    dsimp only at h
    split at h
    · cases h
    · rw [Option.bind_some]
      cases hread : Text.readLines? data with
      | none =>
        rw [hread] at h
        cases h
      | some found =>
        rw [hread] at h
        obtain rfl := Except.ok.inj h
        rw [beq_iff_eq, Option.some_inj]

/-- The temporary file for a file stays open: the file does not read as its text, so that a temporary
file was created for it, a step failed behind which that has to be closed, and this is refused
too. -/
structure StaysOpen (refuses : Step → Bool) (s : Store) (p : Path) (text : String) : Prop where
  outdated : readsAs refuses s p text = .ok false
  created : ∃ work, (prepare refuses s p).2 = .ok work
  sticks : Sticks refuses

/-- What bringing a file up to date does: it is left because it reads as the text, or replaced by
the bytes of the text, or an attempt to replace it has failed. -/
def Brings (refuses : Step → Bool) (s : Store) (p : Path) (text : String) :
    Store × Except WriteFault Bool → Prop
  | (t, .ok true) =>
    s.textAt? p ≠ some text ∧ Replaced s t (s.destination p) (Text.encode text)
  | (t, .ok false) => s.textAt? p = some text ∧ t = s
  | (t, .error _) => refuses .remove = false → Fails s t (StaysOpen refuses s p text)

theorem brings_bringUpToDate (refuses : Step → Bool) (s : Store) (p : Path) (text : String) :
    Brings refuses s p text (bringUpToDate refuses s p text) := by
  rw [bringUpToDate]
  cases hreads : readsAs refuses s p text with
  | error fault =>
    exact fun _ => .of_sameFiles (fun h => nomatch hreads.symm.trans h.outdated) (.refl s)
  | ok isRead =>
    cases isRead with
    | true => exact ⟨(textAt?_of_readsAs hreads).mp rfl, rfl⟩
    | false =>
      have hseen : s.textAt? p ≠ some text :=
        fun h => Bool.false_ne_true ((textAt?_of_readsAs hreads).mpr h)
      have hleaves := leaves_replaceFile refuses s p (Text.encode text)
      dsimp only
      split
      · rename_i after hafter
        rw [hafter] at hleaves
        exact ⟨hseen, hleaves⟩
      · rename_i after fault hafter
        rw [hafter] at hleaves
        have hopen : StaysOpen refuses s p text ↔
            (∃ work, (prepare refuses s p).2 = .ok work) ∧ Sticks refuses :=
          ⟨fun h => ⟨h.created, h.sticks⟩, fun h => ⟨hreads, h.1, h.2⟩⟩
        rw [Brings, hopen]
        exact hleaves

theorem adds_bringUpToDate (refuses : Step → Bool) (s : Store) (p : Path) (text : String) :
    Adds s (bringUpToDate refuses s p text).1 (s.way p) := by
  have hnone : Adds s s (s.way p) := (Adds.refl s).mono (List.nil_subset _)
  have hadds := adds_replaceFile refuses s p (Text.encode text)
  rw [bringUpToDate]
  split
  · exact hnone
  · exact hnone
  · split
    · rename_i after hafter
      rwa [hafter] at hadds
    · rename_i after fault hafter
      rwa [hafter] at hadds

theorem Brings.grows {isChanged : Bool} (h : Brings refuses s p text (t, .ok isChanged)) :
    Grows s t := by
  match isChanged, h with
  | true, h => exact h.2.grows
  | false, h =>
    rw [h.2]
    exact .refl s

/-- Bringing a file up to date changes no other file. -/
theorem Brings.fileIn_of_ne {isChanged : Bool} (h : Brings refuses s p text (t, .ok isChanged))
    {m : Location} (hm : m ≠ s.destination p) : t.fileIn m = s.fileIn m := by
  match isChanged, h with
  | true, h => rw [h.2.fileIn, if_neg hm]
  | false, h => rw [h.2]

end TypedClient.Store

import Mathlib.Data.List.Nodup
import TypedClient.Proofs.Store.Replacement

/-!
# Interrupted runs

A run brings one file after the other up to date and stops at the first that it cannot replace.  It
therefore splits the files in two: those before the fault are up to date, and with the file at which
it failed begin those that keep their bytes.  A file that could not be replaced leaves the others
what they were; what may be left over is its temporary file, if that stays open, and directories on
the way to it.

* `place`, `ways`: where the files of a run are, and what their paths lead through.
* `Ran`: what a run did with the files that it came to; `ran_of_fault_eq_none`: every run without a
  fault does.
* `exists_split_of_fault`: a run with a fault is one without a fault and the file at which it failed.
* `Interrupted`, `Spared`: what a run should leave that was interrupted, and what it leaves at least.
* `writeAll_interrupted_iff`: the files after a run that was interrupted.
-/

namespace TypedClient.Store

variable {s t u : Store} {l : Location} {p : Path} {text : String} {refuses : Step → Bool}

/-! ## A run -/

/-- Where a file of a run is. -/
def place (s : Store) (directory : Path) (name : String) : Location :=
  s.destination (targetPath directory name)

theorem place_of_here (h : t.here = s.here) {directory : Path} (name : String) :
    t.place directory name = s.place directory name :=
  destination_of_here h _

/-- The locations that the paths of files of a run lead through. -/
def ways (s : Store) (directory : Path) (files : List (String × String)) : List Location :=
  files.flatMap fun f => s.way (targetPath directory f.1)

theorem ways_of_here (h : t.here = s.here) (directory : Path) (files : List (String × String)) :
    t.ways directory files = s.ways directory files := by
  rw [ways, ways]
  exact List.flatMap_congr fun f _ => way_of_here h _

/-- What became of the file at a path: it was replaced if it did not read as its text, and then
holds the bytes of the text; or it was left because it read as its text. -/
structure Settled (s t : Store) (p : Path) (text : String) (wasReplaced : Prop) : Prop where
  replaced : wasReplaced →
    s.textAt? p ≠ some text ∧ t.fileIn (s.destination p) = some (Text.encode text)
  left : ¬ wasReplaced →
    t.fileIn (s.destination p) = s.fileIn (s.destination p) ∧ Reads s (s.destination p) text

/-- What a run did with the files that it came to: each is settled, no other file has changed, and
directories were made on the ways to them only. -/
structure Ran (s : Store) (directory : Path) (done : List (String × String)) (t : Store)
    (changed : List Path) : Prop where
  grows : Grows s t
  adds : Adds s t (s.ways directory done)
  settled : ∀ f ∈ done,
    Settled s t (targetPath directory f.1) f.2 (targetPath directory f.1 ∈ changed)
  untouched : ∀ l, (∀ f ∈ done, l ≠ s.place directory f.1) → t.fileIn l = s.fileIn l
  sublist : changed.Sublist (done.map fun f => targetPath directory f.1)

variable {directory : Path} {done files : List (String × String)} {changed : List Path}

theorem Brings.settled {isChanged : Bool} (h : Brings refuses s p text (t, .ok isChanged)) :
    Settled s t p text (isChanged = true) := by
  cases isChanged with
  | true =>
    have hbytes : t.fileIn (s.destination p) = some (Text.encode text) := by
      rw [h.2.fileIn, if_pos rfl]
    exact ⟨fun _ => ⟨h.1, hbytes⟩, fun hnot => absurd rfl hnot⟩
  | false =>
    refine ⟨fun hfalse => absurd hfalse Bool.false_ne_true, fun _ => ⟨?_, reads_of_textAt? h.1⟩⟩
    rw [h.2]

/-- What becomes of a file behind others is what becomes of it from the start, if they leave it what
it is. -/
theorem Settled.of_grows {wasReplaced : Prop} (h : Settled u t p text wasReplaced)
    (hgrows : Grows s u) (hkept : u.fileIn (s.destination p) = s.fileIn (s.destination p)) :
    Settled s t p text wasReplaced := by
  have hplace : u.destination p = s.destination p := destination_of_here hgrows.here p
  constructor
  · intro hwas
    obtain ⟨hseen, hbytes⟩ := h.replaced hwas
    rw [hplace] at hbytes
    refine ⟨fun hreads => hseen ?_, hbytes⟩
    -- what was found at the path is found there still
    obtain ⟨data, hfile, hread⟩ := Option.bind_eq_some_iff.mp hreads
    rw [textAt?, hgrows.fileAt? hkept hfile, Option.bind_some, hread]
  · intro hwasNot
    obtain ⟨hsame, data, hfile, hread⟩ := h.left hwasNot
    rw [hplace, hkept] at hsame hfile
    exact ⟨hsame, data, hfile, hread⟩

/-- What became of a file stays so, if its bytes do. -/
theorem Settled.of_fileIn {wasReplaced wasReplaced' : Prop} (h : Settled s u p text wasReplaced)
    (hkept : t.fileIn (s.destination p) = u.fileIn (s.destination p))
    (hreplaced : wasReplaced' ↔ wasReplaced) : Settled s t p text wasReplaced' := by
  constructor
  · rw [hreplaced, hkept]
    exact h.replaced
  · rw [hreplaced, hkept]
    exact h.left

/-- One more file in front of a run. -/
theorem Ran.cons {f : String × String} {isChanged : Bool}
    (hfirst : Brings refuses s (targetPath directory f.1) f.2 (u, .ok isChanged))
    (hadds : Adds s u (s.way (targetPath directory f.1))) (hran : Ran u directory done t changed)
    (hdistinct : ∀ g ∈ done, s.place directory f.1 ≠ s.place directory g.1) :
    Ran s directory (f :: done) t
      (if isChanged then targetPath directory f.1 :: changed else changed) := by
  have hplace : ∀ name, u.place directory name = s.place directory name :=
    place_of_here hfirst.grows.here
  have hpath : ∀ g ∈ done, targetPath directory g.1 ≠ targetPath directory f.1 :=
    fun g hg heq => hdistinct g hg (by rw [place, place, heq])
  have hfresh : targetPath directory f.1 ∉ changed := fun hmem => by
    obtain ⟨g, hg, heq⟩ := List.mem_map.mp (hran.sublist.subset hmem)
    exact hpath g hg heq
  have hways : Adds u t (s.ways directory done) := by
    rw [← ways_of_here hfirst.grows.here]
    exact hran.adds
  refine ⟨hfirst.grows.trans hran.grows, hadds.trans hways, fun g hg => ?_, fun l hl => ?_, ?_⟩
  · rcases List.mem_cons.mp hg with rfl | hg
    · -- the files behind it leave the first file what it is
      refine hfirst.settled.of_fileIn (hran.untouched _ fun g hg => ?_) ?_
      · rw [hplace]
        exact hdistinct g hg
      · cases isChanged with
        | true => exact iff_of_true (by simp) rfl
        | false => exact iff_of_false (by simpa using hfresh) Bool.false_ne_true
    · refine ((hran.settled g hg).of_grows hfirst.grows
        (hfirst.fileIn_of_ne (hdistinct g hg).symm)).of_fileIn rfl ?_
      cases isChanged with
      | true => simp [hpath g hg]
      | false => simp
  · have hrest : ∀ g ∈ done, l ≠ u.place directory g.1 := fun g hg => by
      rw [hplace]
      exact hl g (List.mem_cons_of_mem _ hg)
    rw [hran.untouched l hrest, hfirst.fileIn_of_ne (hl f List.mem_cons_self)]
  · cases isChanged with
    | true => exact hran.sublist.cons_cons _
    | false => exact hran.sublist.cons _

section Runs

variable {refuses : Refusals} {name text : String} {rest : List (String × String)}

theorem writeAll_cons_of_error {fault : WriteFault}
    (h : bringUpToDate (refuses (targetPath directory name)) s (targetPath directory name) text =
      (t, .error fault)) :
    writeAll refuses s directory ((name, text) :: rest) =
      ⟨t, [], some (targetPath directory name, fault)⟩ := by
  rw [writeAll, h, goOn]

theorem writeAll_cons_of_ok {isChanged : Bool}
    (h : bringUpToDate (refuses (targetPath directory name)) s (targetPath directory name) text =
      (t, .ok isChanged)) :
    writeAll refuses s directory ((name, text) :: rest) =
      { writeAll refuses t directory rest with
        changed :=
          if isChanged then targetPath directory name :: (writeAll refuses t directory rest).changed
          else (writeAll refuses t directory rest).changed } := by
  rw [writeAll, h, goOn]

/-- A run that does not fail settles all its files. -/
theorem ran_of_fault_eq_none (hdistinct : (files.map fun f => s.place directory f.1).Nodup)
    (h : (writeAll refuses s directory files).fault = none) :
    Ran s directory files (writeAll refuses s directory files).store
      (writeAll refuses s directory files).changed := by
  induction files generalizing s with
  | nil => exact ⟨.refl s, .refl s, by simp, fun _ _ => rfl, List.Sublist.refl _⟩
  | cons f rest ih =>
    obtain ⟨name, text⟩ := f
    have hbrings := brings_bringUpToDate (refuses (targetPath directory name)) s
      (targetPath directory name) text
    have hadds := adds_bringUpToDate (refuses (targetPath directory name)) s
      (targetPath directory name) text
    rcases hfirst : bringUpToDate (refuses (targetPath directory name)) s
      (targetPath directory name) text with ⟨t, fault | isChanged⟩
    · rw [writeAll_cons_of_error hfirst] at h
      cases h
    · rw [writeAll_cons_of_ok hfirst] at h ⊢
      rw [hfirst] at hbrings hadds
      rw [List.map_cons, List.nodup_cons] at hdistinct
      have hplace : (rest.map fun f => t.place directory f.1) =
          rest.map fun f => s.place directory f.1 :=
        List.map_congr_left fun g _ => place_of_here hbrings.grows.here g.1
      refine Ran.cons hbrings hadds (ih (by rw [hplace]; exact hdistinct.2) h) fun g hg heq => ?_
      exact hdistinct.1 (List.mem_map.mpr ⟨g, hg, heq.symm⟩)

/-- The files that a run did not come to begin with the one at which it failed; there are none if
it did not fail. -/
def Remains (directory : Path) (rest : List (String × String)) :
    Option (Path × WriteFault) → Prop
  | none => rest = []
  | some (p, _) => ∃ f more, rest = f :: more ∧ p = targetPath directory f.1

/-- A run that fails passes the files in front of the one at which it does. -/
theorem exists_split_of_fault {fault : WriteFault}
    (h : (writeAll refuses s directory files).fault = some (p, fault)) :
    ∃ done failed later, files = done ++ failed :: later ∧ p = targetPath directory failed.1 ∧
      (writeAll refuses s directory done).fault = none ∧
      bringUpToDate (refuses p) (writeAll refuses s directory done).store p failed.2 =
        ((writeAll refuses s directory files).store, .error fault) := by
  induction files generalizing s with
  | nil => cases h
  | cons f rest ih =>
    obtain ⟨name, text⟩ := f
    rcases hfirst : bringUpToDate (refuses (targetPath directory name)) s
      (targetPath directory name) text with ⟨t, found | isChanged⟩
    · rw [writeAll_cons_of_error hfirst] at h ⊢
      obtain ⟨rfl, rfl⟩ := Prod.mk.inj (Option.some_inj.mp h)
      exact ⟨[], (name, text), rest, rfl, rfl, rfl, hfirst⟩
    · rw [writeAll_cons_of_ok hfirst] at h ⊢
      obtain ⟨done, failed, later, rfl, hp, hnone, hfault⟩ := ih h
      refine ⟨(name, text) :: done, failed, later, rfl, hp, ?_⟩
      rw [writeAll_cons_of_ok hfirst]
      exact ⟨hnone, hfault⟩

/-! ## Interrupted runs -/

/-- The file at a location is up to date: it was replaced by the bytes of the text, or left because
it reads as the text. -/
def UpToDate (s t : Store) (l : Location) (text : String) : Prop :=
  t.fileIn l = some (Text.encode text) ∨ t.fileIn l = s.fileIn l ∧ Reads s l text

theorem Settled.upToDate {wasReplaced : Prop} (h : Settled s t p text wasReplaced) :
    UpToDate s t (s.destination p) text := by
  by_cases hwas : wasReplaced
  · exact Or.inl (h.replaced hwas).2
  · exact Or.inr (h.left hwas)

/-- A file that is up to date is there. -/
theorem UpToDate.fileIn_ne_none (h : UpToDate s t l text) : t.fileIn l ≠ none := by
  rcases h with hbytes | ⟨hsame, data, hfile, -⟩
  · rw [hbytes]
    exact Option.some_ne_none _
  · rw [hsame, hfile]
    exact Option.some_ne_none _

/-- A run that was interrupted behind the files `done` spares all others: the files `done` are up to
date, and every other file that was there has its bytes. -/
structure Spared (s : Store) (directory : Path) (done : List (String × String)) (t : Store) :
    Prop where
  upToDate : ∀ f ∈ done, UpToDate s t (s.place directory f.1) f.2
  untouched : ∀ l, s.fileIn l ≠ none → (∀ f ∈ done, l ≠ s.place directory f.1) →
    t.fileIn l = s.fileIn l

/-- What a run should leave that was interrupted behind the files `done`: these are up to date, the
later ones keep their bytes or stay absent, there is no other file than before, in particular no
temporary one, and no other file has changed. -/
structure Interrupted (s : Store) (directory : Path) (done later : List (String × String))
    (t : Store) : Prop where
  upToDate : ∀ f ∈ done, UpToDate s t (s.place directory f.1) f.2
  kept : ∀ f ∈ later, t.fileIn (s.place directory f.1) = s.fileIn (s.place directory f.1)
  nothingLeft : ∀ l, t.fileIn l ≠ none → s.fileIn l ≠ none ∨ ∃ f ∈ done, l = s.place directory f.1
  untouched : ∀ l, (∀ f ∈ done, l ≠ s.place directory f.1) → t.fileIn l = s.fileIn l

theorem Interrupted.spared {later : List (String × String)}
    (h : Interrupted s directory done later t) : Spared s directory done t :=
  ⟨h.upToDate, fun l _ => h.untouched l⟩

theorem Ran.interrupted {later : List (String × String)} (h : Ran s directory done t changed)
    (hdistinct : ((done ++ later).map fun f => s.place directory f.1).Nodup) :
    Interrupted s directory done later t := by
  refine ⟨fun f hf => (h.settled f hf).upToDate, fun f hf => ?_, fun l hl => ?_, h.untouched⟩
  · rw [List.map_append, List.nodup_append] at hdistinct
    refine h.untouched _ fun g hg => ?_
    exact (hdistinct.2.2 _ (List.mem_map_of_mem hg) _ (List.mem_map_of_mem hf)).symm
  · by_cases hdone : ∃ f ∈ done, l = s.place directory f.1
    · exact Or.inr hdone
    · have hsame : t.fileIn l = s.fileIn l :=
        h.untouched l fun f hf heq => hdone ⟨f, hf, heq⟩
      rw [hsame] at hl
      exact Or.inl hl

/-- An attempt that leaves the files that were there changes nothing about a run. -/
theorem Interrupted.of_sameFiles {later : List (String × String)}
    (h : Interrupted s directory done later u) (hsame : SameFiles u t) :
    Interrupted s directory done later t := by
  obtain ⟨hupToDate, hkept, hnothingLeft, huntouched⟩ := h
  constructor
  · simpa only [UpToDate, hsame.fileIn] using hupToDate
  · simpa only [hsame.fileIn] using hkept
  · simpa only [hsame.fileIn] using hnothingLeft
  · simpa only [hsame.fileIn] using huntouched

/-- One that leaves a file over spares the others, but the run does not leave what it should. -/
theorem Interrupted.of_leftOver {later : List (String × String)}
    (h : Interrupted s directory done later u) (hover : LeftOver u t l) :
    Spared s directory done t ∧ ¬ Interrupted s directory done later t := by
  have hne : ∀ m, u.fileIn m ≠ none → m ≠ l := by
    rintro m hm rfl
    exact hm hover.free
  refine ⟨⟨fun f hf => ?_, fun m hm hplace => ?_⟩, fun hall => ?_⟩
  · have hf' := h.upToDate f hf
    rw [UpToDate, hover.fileIn _ (hne _ hf'.fileIn_ne_none)]
    exact hf'
  · have hsame := h.untouched m hplace
    rw [hover.fileIn m (hne m (by rwa [hsame])), hsame]
  · -- the file that is left over is new and none of the run's own
    have hdone : ∀ f ∈ done, l ≠ s.place directory f.1 := by
      rintro f hf rfl
      exact (h.upToDate f hf).fileIn_ne_none hover.free
    have hfree : s.fileIn l = none := by rw [← h.untouched l hdone, hover.free]
    rcases hall.nothingLeft l hover.stays with hthere | ⟨f, hf, heq⟩
    · exact hthere hfree
    · exact hdone f hf heq

/-- A run that does not come to its end, whichever step of whichever file failed, spares all files
behind those that it has brought up to date, provided that the files of the run are different ones
and that its temporary file can be removed.  It leaves what it should, and no temporary file, unless
the temporary file stays open.  Directories stay that it made on the ways to the files it came to,
even where a file was to go later. -/
theorem writeAll_interrupted_iff (refuses : Refusals) (s : Store) (directory : Path)
    (files : List (String × String))
    (hdistinct : (files.map fun f => s.place directory f.1).Nodup) {p : Path} {fault : WriteFault}
    (hfault : (writeAll refuses s directory files).fault = some (p, fault))
    (hremove : refuses p .remove = false) :
    ∃ done failed later, files = done ++ failed :: later ∧
      p = targetPath directory failed.1 ∧
      Spared s directory done (writeAll refuses s directory files).store ∧
      Adds s (writeAll refuses s directory files).store (s.ways directory (done ++ [failed])) ∧
      (Interrupted s directory done (failed :: later) (writeAll refuses s directory files).store ↔
        ¬ StaysOpen (refuses p) (writeAll refuses s directory done).store p failed.2) := by
  obtain ⟨done, failed, later, hfiles, hp, hnone, hbring⟩ := exists_split_of_fault hfault
  refine ⟨done, failed, later, hfiles, hp, ?_⟩
  have hbrings := brings_bringUpToDate (refuses p) (writeAll refuses s directory done).store p
    failed.2
  have hadds := adds_bringUpToDate (refuses p) (writeAll refuses s directory done).store p failed.2
  rw [hbring] at hbrings hadds
  have hfails := hbrings hremove
  rw [hfiles] at hdistinct
  have hdone : (done.map fun f => s.place directory f.1).Nodup := by
    rw [List.map_append] at hdistinct
    exact hdistinct.of_append_left
  have hran := ran_of_fault_eq_none hdone hnone
  have hinterrupted : Interrupted s directory done (failed :: later)
      (writeAll refuses s directory done).store := hran.interrupted hdistinct
  have hways : Adds s (writeAll refuses s directory files).store
      (s.ways directory (done ++ [failed])) := by
    rw [way_of_here hran.grows.here, hp] at hadds
    rw [ways, List.flatMap_append, List.flatMap_singleton]
    exact hran.adds.trans hadds
  by_cases hopen : StaysOpen (refuses p) (writeAll refuses s directory done).store p failed.2
  · obtain ⟨l, hover⟩ := hfails.leftOver hopen
    obtain ⟨hspared, hnot⟩ := hinterrupted.of_leftOver hover
    exact ⟨hspared, hways, iff_of_false hnot fun h => h hopen⟩
  · have hall := hinterrupted.of_sameFiles (hfails.cleaned hopen)
    exact ⟨hall.spared, hways, iff_of_true hall hopen⟩

end Runs

/-- A store with an old file. -/
def desk : Store :=
  (empty ["home"]).put ["home", "api.ts"] (.file (Text.encode "old"))

/-- The old file cannot be replaced. -/
def pinned : Refusals := fun p step => decide (p.name = "api.ts" ∧ step = .rename)

/-- The run stops at the old file, with the new one before it up to date and nothing left over. -/
theorem writeAll_interrupted_desk :
    let files := [("definitions.ts", "new"), ("api.ts", "new")]
    (writeAll pinned desk ⟨"", []⟩ files).fault = some (⟨"", ["api.ts"]⟩, .store .refused) ∧
      ∃ done failed later, files = done ++ failed :: later ∧
        (⟨"", ["api.ts"]⟩ : Path) = targetPath ⟨"", []⟩ failed.1 ∧
        Interrupted desk ⟨"", []⟩ done (failed :: later)
          (writeAll pinned desk ⟨"", []⟩ files).store := by
  intro files
  have hfault : (writeAll pinned desk ⟨"", []⟩ files).fault =
      some (⟨"", ["api.ts"]⟩, .store .refused) := by decide +kernel
  obtain ⟨done, failed, later, hfiles, hp, -, -, hiff⟩ :=
    writeAll_interrupted_iff pinned desk ⟨"", []⟩ files (by decide +kernel) hfault
      (by decide +kernel)
  refine ⟨hfault, done, failed, later, hfiles, hp, hiff.mpr fun hopen => ?_⟩
  exact absurd hopen.sticks.unclosed (by decide +kernel)

/-- The disk is full: what is written cannot be flushed, neither before nor while the temporary file
is closed. -/
def fullDisk : Refusals := fun _ step => decide (step = .flush ∨ step = .abandon)

/-- On a disk that is full a temporary file stays behind, although it could have been removed. -/
theorem not_interrupted_fullDisk :
    ¬ ∀ (refuses : Refusals) (s : Store) (directory : Path) (files : List (String × String)),
      (files.map fun f => s.place directory f.1).Nodup → ∀ (p : Path) (fault : WriteFault),
      (writeAll refuses s directory files).fault = some (p, fault) →
      refuses p .remove = false →
      ∃ done failed later, files = done ++ failed :: later ∧
        p = targetPath directory failed.1 ∧
        Interrupted s directory done (failed :: later)
          (writeAll refuses s directory files).store := by
  intro hclaim
  obtain ⟨done, failed, later, hfiles, -, hinterrupted⟩ :=
    hclaim fullDisk (empty ["home"]) ⟨"", []⟩ [("api.ts", "new")] (by decide +kernel)
      ⟨"", ["api.ts"]⟩ (.store .refused) (by decide +kernel) (by decide +kernel)
  have hleft : (writeAll fullDisk (empty ["home"]) ⟨"", []⟩ [("api.ts", "new")]).store.fileIn
      ["home", ".api.ts.0.tmp"] ≠ none := by decide +kernel
  rcases hinterrupted.nothingLeft _ hleft with hthere | ⟨f, hf, heq⟩
  · exact hthere (by decide +kernel)
  · -- the only file of the run is the one at which it failed
    have hlength : 1 = done.length + (later.length + 1) := by
      rw [← List.length_cons (a := failed), ← List.length_append, ← hfiles, List.length_singleton]
    have hpositive : 0 < done.length := List.length_pos_of_mem hf
    omega

end TypedClient.Store

import TypedClient.Proofs.Store.Placement
import TypedClient.Proofs.Store.Writing

/-!
# Runs that deliver

A run should leave each of its files with the bytes of its text and tell of those whose bytes it had
to change.  But it looks at a file as a text with unified line ends.  So a file that has other line
ends than its text is taken for up to date, a text with a carriage return never is, and a file that
is not UTF-8 stops the run.  Apart from that, and from files that stand in each other's way, every
run delivers.

* `Unreadable`: files in which a run sees no text.
* `bringUpToDate_cases`, `exists_placed_of_bringUpToDate`: what becomes of one file.
* `IsTarget`: paths at which there is a file, or where one can be created.
* `writeAll_of_targets`: what becomes of the files of a run.
* `HasBytes`, `Delivered`, `writeAll_delivers_iff`: what a run should leave, and when it does.
* `not_delivered_line_ends`: a file with other line ends is left as it is.
-/

namespace TypedClient.Store

variable {s t : Store} {l m : Location} {p q : Path} {data : ByteArray} {text : String}

/-! ## What a run sees -/

/-- The file at a path is not UTF-8. -/
def Unreadable (s : Store) (p : Path) : Prop :=
  ∃ data, s.fileAt? p = some data ∧ Text.readLines? data = none

theorem readsAs_of_fileAt? (h : s.fileAt? p = some data) (text : String) :
    readsAs (noRefusals p) s p text =
      match Text.readLines? data with
      | none => .error .undecodable
      | some found => .ok (found == text) := by
  rw [readsAs, h]
  rfl

theorem bringUpToDate_of_differs (h : readsAs (noRefusals p) s p text = .ok false) :
    bringUpToDate (noRefusals p) s p text =
      match replaceFile (fun _ => false) s p (Text.encode text) with
      | (after, none) => (after, .ok true)
      | (after, some fault) => (after, .error (.store fault)) := by
  rw [bringUpToDate, h]
  rfl

/-- Without refusals a file that is not UTF-8 stops the run, one that reads as its text is left, and
any other one is replaced. -/
theorem bringUpToDate_cases (s : Store) (p : Path) (text : String) :
    (s.Unreadable p ∧ bringUpToDate (noRefusals p) s p text = (s, .error .undecodable)) ∨
    (s.textAt? p = some text ∧ bringUpToDate (noRefusals p) s p text = (s, .ok false)) ∨
    (¬ s.Unreadable p ∧ s.textAt? p ≠ some text ∧
      ((∃ t, replaceFile (fun _ => false) s p (Text.encode text) = (t, none) ∧
        bringUpToDate (noRefusals p) s p text = (t, .ok true)) ∨
      ∃ t fault, replaceFile (fun _ => false) s p (Text.encode text) = (t, some fault) ∧
        bringUpToDate (noRefusals p) s p text = (t, .error (.store fault)))) := by
  have hdiffers : readsAs (noRefusals p) s p text = .ok false →
      (∃ t, replaceFile (fun _ => false) s p (Text.encode text) = (t, none) ∧
        bringUpToDate (noRefusals p) s p text = (t, .ok true)) ∨
      ∃ t fault, replaceFile (fun _ => false) s p (Text.encode text) = (t, some fault) ∧
        bringUpToDate (noRefusals p) s p text = (t, .error (.store fault)) := by
    intro hreads
    have hbring := bringUpToDate_of_differs hreads
    rcases hreplace : replaceFile (fun _ => false) s p (Text.encode text) with ⟨t, _ | fault⟩
    · rw [hreplace] at hbring
      exact Or.inl ⟨t, rfl, hbring⟩
    · rw [hreplace] at hbring
      exact Or.inr ⟨t, fault, rfl, hbring⟩
  cases hfile : s.fileAt? p with
  | none =>
    refine Or.inr (Or.inr ⟨?_, ?_, hdiffers ?_⟩)
    · rintro ⟨data, hdata, -⟩
      rw [hfile] at hdata
      cases hdata
    · rw [textAt?, hfile]
      rintro ⟨⟩
    · rw [readsAs, hfile]
  | some data =>
    cases hread : Text.readLines? data with
    | none =>
      refine Or.inl ⟨⟨data, hfile, hread⟩, ?_⟩
      rw [bringUpToDate, readsAs_of_fileAt? hfile, hread]
    | some found =>
      have hseen : s.textAt? p = some found := by rw [textAt?, hfile, Option.bind_some, hread]
      have hreads : readsAs (noRefusals p) s p text = .ok (found == text) := by
        rw [readsAs_of_fileAt? hfile, hread]
      by_cases heq : found = text
      · refine Or.inr (Or.inl ⟨hseen.trans (congrArg some heq), ?_⟩)
        rw [heq, beq_self_eq_true] at hreads
        rw [bringUpToDate, hreads]
      · refine Or.inr (Or.inr ⟨?_, ?_, hdiffers ?_⟩)
        · rintro ⟨data', hdata', hnone⟩
          rw [hfile] at hdata'
          obtain rfl := Option.some_inj.mp hdata'
          rw [hread] at hnone
          cases hnone
        · rw [hseen]
          exact fun h => heq (Option.some_inj.mp h)
        · rw [hreads, beq_eq_false_iff_ne.mpr heq]

/-! ## One file -/

namespace Placed

theorem grows (h : Placed s t p data) (hclear : Clear s p) : Grows s t := by
  refine ⟨h.here, fun l hl => ?_⟩
  have hne : l ≠ s.destination p := by
    rintro rfl
    exact hclear.target hl
  rw [h.get?, if_neg hne, hl, ite_self]

/-- The file is at the path where it was put. -/
theorem fileAt? (h : Placed s t p data) (hclear : Clear s p) : t.fileAt? p = some data := by
  rw [fileAt?_eq_some_iff, locate_eq_ok_iff, way_of_here h.here, destination_of_here h.here]
  refine ⟨⟨fun l hl => ?_, rfl⟩, ?_⟩
  · have hne : l ≠ s.destination p := by
      rintro rfl
      exact hclear.apart hl
    rw [h.get?, if_neg hne, if_pos hl]
  · rw [fileIn, h.get?, if_pos rfl]

/-- Other files stay where they are. -/
theorem fileIn_of_ne (h : Placed s t p data) (hclear : Clear s p) (hl : l ≠ s.destination p) :
    t.fileIn l = s.fileIn l := by
  rw [fileIn, h.get?, if_neg hl]
  split_ifs with hway
  · exact (hclear.free l hway).symm
  · rfl

theorem fileAt?_of_eq_some (h : Placed s t p data) (hclear : Clear s p)
    (hne : s.destination q ≠ s.destination p) {found : ByteArray}
    (hq : s.fileAt? q = some found) : t.fileAt? q = some found :=
  (h.grows hclear).fileAt? (h.fileIn_of_ne hclear hne) hq

end Placed

/-- A file that is found at a path was put there, so to speak. -/
theorem placed_of_fileAt? (h : s.fileAt? p = some data) : Clear s p ∧ Placed s s p data := by
  obtain ⟨hlocate, hfile⟩ := fileAt?_eq_some_iff.mp h
  obtain ⟨hway, -⟩ := locate_eq_ok_iff.mp hlocate
  have hget : s.get? (s.destination p) = some (.file data) := by
    rw [fileIn] at hfile
    split at hfile
    · rename_i found hfound
      rw [hfound, Option.some_inj.mp hfile]
    · cases hfile
  refine ⟨⟨fun l hl => fileIn_eq_none_of_directory (hway l hl), ?_, fun hmem => ?_⟩, rfl,
    fun m => ?_⟩
  · rw [hget]
    rintro ⟨⟩
  · have hdirectory := hway _ hmem
    rw [hget] at hdirectory
    cases hdirectory
  · split_ifs with hm hmem
    · rw [hm, hget]
    · exact hway m hmem
    · rfl

/-- A file that was brought up to date is at its path, with the bytes of its text if it was
replaced, and with bytes that read as its text if it was not. -/
theorem exists_placed_of_bringUpToDate {isChanged : Bool}
    (h : bringUpToDate (noRefusals p) s p text = (t, .ok isChanged)) :
    ∃ data, Clear s p ∧ Placed s t p data ∧
      ((isChanged = true ∧ data = Text.encode text ∧ s.textAt? p ≠ some text) ∨
        (isChanged = false ∧ s.fileAt? p = some data ∧ s.textAt? p = some text)) := by
  rcases bringUpToDate_cases s p text with ⟨-, hbring⟩ | ⟨hseen, hbring⟩ |
    ⟨-, hseen, ⟨u, hreplace, hbring⟩ | ⟨u, fault, -, hbring⟩⟩
  · rw [hbring] at h
    cases h
  · rw [hbring] at h
    cases h
    obtain ⟨data, hfile, -⟩ := Option.bind_eq_some_iff.mp hseen
    obtain ⟨hclear, hplaced⟩ := placed_of_fileAt? hfile
    exact ⟨data, hclear, hplaced, Or.inr ⟨rfl, hfile, hseen⟩⟩
  · rw [hbring] at h
    cases h
    obtain ⟨hclear, hplaced⟩ := placed_of_replaceFile hreplace
    exact ⟨_, hclear, hplaced, Or.inl ⟨rfl, rfl, hseen⟩⟩
  · rw [hbring] at h
    cases h

/-! ## Targets -/

/-- The path starts at a directory, and there is a regular file at it, or nothing is and no file
keeps the directories in front of it from being created. -/
structure IsTarget (s : Store) (p : Path) : Prop where
  starts : s.get? (s.startOf p) = some .directory
  regularOrAbsent : (∃ data, s.fileAt? p = some data) ∨
    s.get? (s.destination p) = none ∧ ∀ l ∈ s.way p, s.fileIn l = none

theorem fileAt?_eq_none_of_get? (h : s.get? (s.destination p) = none) : s.fileAt? p = none := by
  rw [Option.eq_none_iff_forall_ne_some]
  intro data hdata
  rw [fileAt?_eq_some_iff, fileIn_eq_none h] at hdata
  cases hdata.2

theorem IsTarget.clear (h : IsTarget s p) (hapart : s.destination p ∉ s.way p) : Clear s p := by
  rcases h.regularOrAbsent with ⟨data, hdata⟩ | ⟨habsent, hfree⟩
  · exact (placed_of_fileAt? hdata).1
  · refine ⟨hfree, ?_, hapart⟩
    rw [habsent]
    rintro ⟨⟩

/-- A file that is put at a path leaves other targets what they are, unless one of the two stands in
the way of the other. -/
theorem IsTarget.of_placed (h : IsTarget s q) (hclear : Clear s p) (hplaced : Placed s t p data)
    (hne : s.destination q ≠ s.destination p) (hq : s.destination q ∉ s.way p)
    (hp : s.destination p ∉ s.way q) : IsTarget t q ∧ t.fileAt? q = s.fileAt? q := by
  have hgrows := hplaced.grows hclear
  have hstart : t.startOf q = s.startOf q := by rw [startOf, startOf, hplaced.here]
  have hstarts : t.get? (t.startOf q) = some .directory := by
    rw [hstart]
    exact hgrows.directory _ h.starts
  rcases h.regularOrAbsent with ⟨found, hfound⟩ | ⟨habsent, hfree⟩
  · have hkept := hplaced.fileAt?_of_eq_some hclear hne hfound
    exact ⟨⟨hstarts, Or.inl ⟨found, hkept⟩⟩, by rw [hkept, hfound]⟩
  · have habsent' : t.get? (t.destination q) = none := by
      rw [destination_of_here hplaced.here, hplaced.get?, if_neg hne, if_neg hq, habsent]
    refine ⟨⟨hstarts, Or.inr ⟨habsent', fun l hl => ?_⟩⟩, ?_⟩
    · rw [way_of_here hplaced.here] at hl
      have hl' : l ≠ s.destination p := by
        rintro rfl
        exact hp hl
      rw [hplaced.fileIn_of_ne hclear hl', hfree l hl]
    · rw [fileAt?_eq_none_of_get? habsent', fileAt?_eq_none_of_get? habsent]

/-- A target that is no unreadable file is brought up to date. -/
theorem IsTarget.exists_bringUpToDate (h : IsTarget s p) (hapart : s.destination p ∉ s.way p)
    (hreadable : ¬ s.Unreadable p) (text : String) :
    ∃ t isChanged, bringUpToDate (noRefusals p) s p text = (t, .ok isChanged) := by
  rcases bringUpToDate_cases s p text with ⟨hunreadable, -⟩ | ⟨-, hbring⟩ |
    ⟨-, -, ⟨u, -, hbring⟩ | ⟨u, fault, hreplace, -⟩⟩
  · exact absurd hunreadable hreadable
  · exact ⟨s, false, hbring⟩
  · exact ⟨u, true, hbring⟩
  · obtain ⟨v, hv⟩ := exists_replaceFile (h.clear hapart) h.starts (Text.encode text)
    rw [hv] at hreplace
    cases hreplace

/-! ## Runs -/

variable {directory : Path} {files : List (String × String)}

/-- No file of a run stands where the path of one of them leads through. -/
def Apart (s : Store) (directory : Path) (files : List (String × String)) : Prop :=
  ∀ f ∈ files, ∀ g ∈ files, s.place directory f.1 ∉ s.way (targetPath directory g.1)

/-- The files that a run has to replace: those that do not read as their texts. -/
def outdated (s : Store) (directory : Path) (files : List (String × String)) :
    List (String × String) :=
  files.filter fun f => decide (s.textAt? (targetPath directory f.1) ≠ some f.2)

/-- The files of a run that came to its end: those that read as their texts are left, the others
hold the bytes of their texts, and no other file has changed. -/
structure Settles (s : Store) (directory : Path) (files : List (String × String)) (t : Store) :
    Prop where
  grows : Grows s t
  left : ∀ f ∈ files, s.textAt? (targetPath directory f.1) = some f.2 →
    t.fileAt? (targetPath directory f.1) = s.fileAt? (targetPath directory f.1)
  replaced : ∀ f ∈ files, s.textAt? (targetPath directory f.1) ≠ some f.2 →
    t.fileAt? (targetPath directory f.1) = some (Text.encode f.2)
  untouched : ∀ l, (∀ f ∈ files, l ≠ s.place directory f.1) → t.fileIn l = s.fileIn l

/-- A file that was brought up to date and left the others what they are is settled with them. -/
theorem Settles.cons {u : Store} {name : String} {rest : List (String × String)} {isChanged : Bool}
    (hname : s.place directory name ∉ rest.map fun f => s.place directory f.1)
    (hclear : Clear s (targetPath directory name))
    (hplaced : Placed s u (targetPath directory name) data)
    (hdata : (isChanged = true ∧ data = Text.encode text ∧
        s.textAt? (targetPath directory name) ≠ some text) ∨
      (isChanged = false ∧ s.fileAt? (targetPath directory name) = some data ∧
        s.textAt? (targetPath directory name) = some text))
    (hkept : ∀ g ∈ rest,
      u.fileAt? (targetPath directory g.1) = s.fileAt? (targetPath directory g.1))
    (h : Settles u directory rest t) : Settles s directory ((name, text) :: rest) t := by
  have hplace : ∀ g : String × String, u.place directory g.1 = s.place directory g.1 :=
    fun g => place_of_here hplaced.here g.1
  have hseen : ∀ g ∈ rest, u.textAt? (targetPath directory g.1) =
      s.textAt? (targetPath directory g.1) := by
    intro g hg
    rw [textAt?, textAt?, hkept g hg]
  -- the files behind it leave it what it is
  have hfile : t.fileAt? (targetPath directory name) = some data := by
    refine h.grows.fileAt? (h.untouched _ fun g hg heq => hname ?_) (hplaced.fileAt? hclear)
    rw [hplace, destination_of_here hplaced.here] at heq
    exact List.mem_map.mpr ⟨g, hg, heq.symm⟩
  refine ⟨(hplaced.grows hclear).trans h.grows,
    List.forall_mem_cons.mpr ⟨fun hreads => ?_, fun g hg hreads => ?_⟩,
    List.forall_mem_cons.mpr ⟨fun hreads => ?_, fun g hg hreads => ?_⟩, fun l hl => ?_⟩
  · rcases hdata with ⟨-, -, hnot⟩ | ⟨-, hfound, -⟩
    · exact absurd hreads hnot
    · rw [hfile, hfound]
  · rw [h.left g hg (by rw [hseen g hg, hreads]), hkept g hg]
  · rcases hdata with ⟨-, hencode, -⟩ | ⟨-, -, hread⟩
    · rw [hfile, hencode]
    · exact absurd hread hreads
  · exact h.replaced g hg (by rwa [hseen g hg])
  · rw [List.forall_mem_cons] at hl
    rw [h.untouched l fun g hg => by rw [hplace]; exact hl.2 g hg,
      hplaced.fileIn_of_ne hclear hl.1]

/-- A run brings all its files up to date, if each of them is a target and readable, and they do not
stand in each other's way. -/
theorem writeAll_of_targets (hdistinct : (files.map fun f => s.place directory f.1).Nodup)
    (htargets : ∀ f ∈ files, IsTarget s (targetPath directory f.1))
    (hapart : Apart s directory files)
    (hreadable : ∀ f ∈ files, ¬ s.Unreadable (targetPath directory f.1)) :
    ∃ t, writeAll noRefusals s directory files =
        ⟨t, (outdated s directory files).map fun f => targetPath directory f.1, none⟩ ∧
      Settles s directory files t := by
  induction files generalizing s with
  | nil => exact ⟨s, rfl, .refl s, by simp, by simp, fun _ _ => rfl⟩
  | cons f rest ih =>
    obtain ⟨name, text⟩ := f
    rw [List.forall_mem_cons] at htargets hreadable
    rw [List.map_cons, List.nodup_cons] at hdistinct
    have hself : (name, text) ∈ (name, text) :: rest := List.mem_cons_self
    obtain ⟨u, isChanged, hbring⟩ :=
      htargets.1.exists_bringUpToDate (hapart _ hself _ hself) hreadable.1 text
    obtain ⟨data, hclear, hplaced, hdata⟩ := exists_placed_of_bringUpToDate hbring
    have hplace : ∀ g : String × String, u.place directory g.1 = s.place directory g.1 :=
      fun g => place_of_here hplaced.here g.1
    -- the file leaves the targets behind it what they are
    have hkept : ∀ g ∈ rest, IsTarget u (targetPath directory g.1) ∧
        u.fileAt? (targetPath directory g.1) = s.fileAt? (targetPath directory g.1) := by
      intro g hg
      have hmem : g ∈ (name, text) :: rest := List.mem_cons_of_mem _ hg
      refine (htargets.2 g hg).of_placed hclear hplaced (fun heq => hdistinct.1 ?_)
        (hapart g hmem _ hself) (hapart _ hself g hmem)
      exact List.mem_map.mpr ⟨g, hg, heq⟩
    obtain ⟨t, hrun, hsettles⟩ := ih (by simpa only [hplace] using hdistinct.2)
      (fun g hg => (hkept g hg).1)
      (fun g hg g' hg' => by
        rw [hplace, way_of_here hplaced.here]
        exact hapart g (List.mem_cons_of_mem _ hg) g' (List.mem_cons_of_mem _ hg'))
      (fun g hg hunreadable => hreadable.2 g hg (by
        rw [Unreadable, (hkept g hg).2] at hunreadable
        exact hunreadable))
    have houtdated : outdated u directory rest = outdated s directory rest :=
      List.filter_congr fun g hg => by rw [textAt?, textAt?, (hkept g hg).2]
    refine ⟨t, ?_, hsettles.cons hdistinct.1 hclear hplaced hdata fun g hg => (hkept g hg).2⟩
    rw [writeAll_cons_of_ok hbring, hrun, houtdated, outdated, outdated]
    rcases hdata with ⟨rfl, -, hreads⟩ | ⟨rfl, -, hreads⟩
    · rw [List.filter_cons_of_pos (by simpa using hreads), List.map_cons]
      rfl
    · rw [List.filter_cons_of_neg (by simpa using hreads)]
      rfl

/-- What a run found that came to its end: no file stood on its ways but those that it wrote itself,
no directory stood where it put one, and each file that it looked at was UTF-8. -/
structure Passed (s : Store) (directory : Path) (files : List (String × String)) : Prop where
  free : ∀ g ∈ files, ∀ l ∈ s.way (targetPath directory g.1),
    (∀ f ∈ files, l ≠ s.place directory f.1) → s.fileIn l = none
  target : ∀ f ∈ files, s.get? (s.place directory f.1) ≠ some .directory
  apart : Apart s directory files
  readable : ∀ f ∈ files, ¬ s.Unreadable (targetPath directory f.1)

/-- What a run finds at its first file and, once that is in its place, at the others. -/
theorem Passed.cons {name : String} {rest : List (String × String)}
    (hname : s.place directory name ∉ rest.map fun f => s.place directory f.1)
    (hreadable : ¬ s.Unreadable (targetPath directory name))
    (hclear : Clear s (targetPath directory name))
    (hplaced : Placed s t (targetPath directory name) data) (h : Passed t directory rest) :
    Passed s directory ((name, text) :: rest) := by
  have hgrows := hplaced.grows hclear
  have hplace : ∀ g : String × String, t.place directory g.1 = s.place directory g.1 :=
    fun g => place_of_here hplaced.here g.1
  have hway : ∀ g : String × String,
      t.way (targetPath directory g.1) = s.way (targetPath directory g.1) :=
    fun g => way_of_here hplaced.here _
  have hother : ∀ g ∈ rest, s.place directory g.1 ≠ s.place directory name :=
    fun g hg heq => hname (List.mem_map.mpr ⟨g, hg, heq⟩)
  refine ⟨List.forall_mem_cons.mpr ⟨fun l hl _ => hclear.free l hl, fun g hg l hl hne => ?_⟩,
    List.forall_mem_cons.mpr ⟨hclear.target, fun g hg hdirectory => ?_⟩,
    List.forall_mem_cons.mpr ⟨List.forall_mem_cons.mpr ⟨hclear.apart, fun g hg hmem => ?_⟩,
      fun g hg => List.forall_mem_cons.mpr ⟨fun hmem => ?_, fun g' hg' => ?_⟩⟩,
    List.forall_mem_cons.mpr ⟨hreadable, ?_⟩⟩
  · rw [List.forall_mem_cons] at hne
    rw [← hway] at hl
    rw [← hplaced.fileIn_of_ne hclear hne.1]
    exact h.free g hg l hl fun g' hg' => by rw [hplace]; exact hne.2 g' hg'
  · refine h.target g hg ?_
    rw [hplace]
    exact hgrows.directory _ hdirectory
  · -- the first file would stand on the way of a later one
    have hstands : t.fileIn (s.place directory name) = some data := by
      rw [fileIn, hplaced.get?, place, if_pos rfl]
    rw [h.free g hg _ (by rw [hway]; exact hmem) fun g' hg' => by
      rw [hplace]; exact (hother g' hg').symm] at hstands
    cases hstands
  · -- there would be a directory where the later file goes
    refine h.target g hg ?_
    rw [hplace, hplaced.get?]
    exact (if_neg (hother g hg)).trans (if_pos hmem)
  · have hapart := h.apart g hg g' hg'
    rw [hplace, hway] at hapart
    exact hapart
  · rintro g hg ⟨found, hfound, hnone⟩
    exact h.readable g hg ⟨found, hplaced.fileAt?_of_eq_some hclear (hother g hg) hfound, hnone⟩

/-- A file that was brought up to date could be read. -/
theorem not_unreadable_of_bringUpToDate {isChanged : Bool}
    (h : bringUpToDate (noRefusals p) s p text = (t, .ok isChanged)) : ¬ s.Unreadable p := by
  rcases bringUpToDate_cases s p text with ⟨-, hstop⟩ | ⟨hseen, -⟩ | ⟨hreadable, -⟩
  · rw [hstop] at h
    cases h
  · rintro ⟨found, hfound, hnone⟩
    rw [textAt?, hfound, Option.bind_some, hnone] at hseen
    cases hseen
  · exact hreadable

theorem passed_of_fault_eq_none (hdistinct : (files.map fun f => s.place directory f.1).Nodup)
    (h : (writeAll noRefusals s directory files).fault = none) : Passed s directory files := by
  induction files generalizing s with
  | nil => exact ⟨by simp, by simp, by simp [Apart], by simp⟩
  | cons f rest ih =>
    obtain ⟨name, text⟩ := f
    rw [List.map_cons, List.nodup_cons] at hdistinct
    rcases hbring : bringUpToDate (noRefusals (targetPath directory name)) s
      (targetPath directory name) text with ⟨t, fault | isChanged⟩
    · rw [writeAll_cons_of_error hbring] at h
      cases h
    · rw [writeAll_cons_of_ok hbring] at h
      obtain ⟨data, hclear, hplaced, -⟩ := exists_placed_of_bringUpToDate hbring
      have hdistinct' : (rest.map fun g => t.place directory g.1).Nodup := by
        simpa only [place_of_here hplaced.here] using hdistinct.2
      exact (ih hdistinct' h).cons hdistinct.1 (not_unreadable_of_bringUpToDate hbring) hclear
        hplaced

/-! ## Delivery -/

/-- There is a file at a path, and it has exactly the bytes of a text. -/
def HasBytes (s : Store) (p : Path) (text : String) : Prop :=
  s.fileAt? p = some (Text.encode text)

-- Whether bytes are equal can be decided in several ways; the entries of a store settle for one.
instance (s : Store) (p : Path) (text : String) : Decidable (HasBytes s p text) :=
  decidable_of_iff ((s.fileAt? p).map Entry.file = some (.file (Text.encode text))) <| by
    rw [HasBytes, Option.map_eq_some_iff]
    constructor
    · rintro ⟨data, hdata, heq⟩
      rw [hdata, Entry.file.inj heq]
    · exact fun h => ⟨_, h, rfl⟩

/-- What a run should leave: it succeeds, each file holds exactly the bytes of its text, the paths
of those whose bytes it had to change are told, and no other file has changed. -/
structure Delivered (s : Store) (directory : Path) (files : List (String × String)) (w : Written) :
    Prop where
  succeeds : w.fault = none
  exact : ∀ f ∈ files, HasBytes w.store (targetPath directory f.1) f.2
  changed : w.changed = (files.filter fun f =>
    decide (¬ HasBytes s (targetPath directory f.1) f.2)).map fun f => targetPath directory f.1
  untouched : ∀ l, (∀ f ∈ files, l ≠ s.place directory f.1) → w.store.fileIn l = s.fileIn l

/-- The bytes read as the text exactly if they are those of the text. -/
def Faithful (data : ByteArray) (text : String) : Prop :=
  ∃ found, Text.readLines? data = some found ∧ (found = text ↔ data = Text.encode text)

theorem textAt?_eq_some_iff_of_faithful
    (h : ∀ data, s.fileAt? p = some data → Faithful data text) :
    s.textAt? p = some text ↔ HasBytes s p text := by
  rw [HasBytes]
  cases hfile : s.fileAt? p with
  | none => simp [textAt?, hfile]
  | some data =>
    obtain ⟨found, hread, hiff⟩ := h data hfile
    rw [textAt?, hfile, Option.bind_some, hread, Option.some_inj, Option.some_inj, hiff]

/-- An entry of a list with distinct keys is kept by a filter exactly if its key is among those of
what the filter keeps. -/
theorem mem_map_filter_iff {α β : Type} {key : α → β} {keeps : α → Bool} {entries : List α}
    (hdistinct : (entries.map key).Nodup) {a : α} (ha : a ∈ entries) :
    key a ∈ (entries.filter keeps).map key ↔ keeps a = true := by
  rw [List.mem_map]
  constructor
  · rintro ⟨b, hb, heq⟩
    rw [List.mem_filter] at hb
    rw [← List.inj_on_of_nodup_map hdistinct hb.1 ha heq]
    exact hb.2
  · exact fun h => ⟨a, List.mem_filter.mpr ⟨ha, h⟩, rfl⟩

/-- If the files are different ones, and each is a regular file or absent with directories that can
be created, then a run delivers exactly if none of them stands where another one's path leads
through, and the bytes that are there read as the text of their file only if they are those of the
text. -/
theorem writeAll_delivers_iff (hdistinct : (files.map fun f => s.place directory f.1).Nodup)
    (htargets : ∀ f ∈ files, IsTarget s (targetPath directory f.1)) :
    Delivered s directory files (writeAll noRefusals s directory files) ↔
      Apart s directory files ∧
        ∀ f ∈ files, ∀ data, s.fileAt? (targetPath directory f.1) = some data →
          Faithful data f.2 := by
  constructor
  · intro hdelivered
    have hpassed := passed_of_fault_eq_none hdistinct hdelivered.succeeds
    obtain ⟨t, hrun, -⟩ := writeAll_of_targets hdistinct htargets hpassed.apart hpassed.readable
    have hchanged := hdelivered.changed
    rw [hrun, outdated] at hchanged
    dsimp only at hchanged
    have hpaths : (files.map fun f => targetPath directory f.1).Nodup := by
      refine List.Nodup.of_map s.destination ?_
      rw [List.map_map]
      exact hdistinct
    refine ⟨hpassed.apart, fun f hf data hdata => ?_⟩
    cases hread : Text.readLines? data with
    | none => exact absurd ⟨data, hdata, hread⟩ (hpassed.readable f hf)
    | some found =>
      have hmem := congrArg (targetPath directory f.1 ∈ ·) hchanged
      rw [eq_iff_iff, mem_map_filter_iff hpaths hf, mem_map_filter_iff hpaths hf,
        decide_eq_true_iff, decide_eq_true_iff, not_iff_not, textAt?, HasBytes, hdata,
        Option.bind_some, hread, Option.some_inj, Option.some_inj] at hmem
      exact ⟨found, hread, hmem⟩
  · rintro ⟨hapart, hfaithful⟩
    have hiff := fun f hf => textAt?_eq_some_iff_of_faithful (hfaithful f hf)
    have hreadable : ∀ f ∈ files, ¬ s.Unreadable (targetPath directory f.1) := by
      rintro f hf ⟨data, hdata, hnone⟩
      obtain ⟨found, hread, -⟩ := hfaithful f hf data hdata
      rw [hnone] at hread
      cases hread
    obtain ⟨t, hrun, hsettles⟩ := writeAll_of_targets hdistinct htargets hapart hreadable
    rw [hrun]
    refine ⟨rfl, fun f hf => ?_, ?_, hsettles.untouched⟩
    · by_cases hseen : s.textAt? (targetPath directory f.1) = some f.2
      · exact (hsettles.left f hf hseen).trans ((hiff f hf).mp hseen)
      · exact hsettles.replaced f hf hseen
    · refine congrArg (List.map _) (List.filter_congr fun f hf => ?_)
      rw [decide_eq_decide, ne_eq, hiff f hf]

/-- A store with an old file, and one with other line ends. -/
def outdatedDesk : Store :=
  ((empty ["home"]).put ["home", "api.ts"] (.file (Text.encode "old"))).put
    ["home", "client.ts"] (.file (Text.encode "new\r\n"))

/-- The old file and an absent one are delivered. -/
theorem outdatedDesk_delivered :
    let files := [("api.ts", "new\n"), ("definitions.ts", "")]
    (files.map fun f => outdatedDesk.place ⟨"", []⟩ f.1).Nodup ∧
      (∀ f ∈ files, IsTarget outdatedDesk (targetPath ⟨"", []⟩ f.1)) ∧
      Delivered outdatedDesk ⟨"", []⟩ files (writeAll noRefusals outdatedDesk ⟨"", []⟩ files) := by
  intro files
  have hdistinct : (files.map fun f => outdatedDesk.place ⟨"", []⟩ f.1).Nodup := by decide +kernel
  have htargets : ∀ f ∈ files, IsTarget outdatedDesk (targetPath ⟨"", []⟩ f.1) := by
    simp only [files, List.forall_mem_cons, List.not_mem_nil, false_implies, implies_true, and_true]
    refine ⟨⟨by decide +kernel, Or.inl ⟨Text.encode "old", by decide +kernel⟩⟩, by decide +kernel,
      Or.inr ⟨by decide +kernel, by decide +kernel⟩⟩
  refine ⟨hdistinct, htargets, (writeAll_delivers_iff hdistinct htargets).mpr
    ⟨by unfold Apart; decide +kernel, ?_⟩⟩
  simp only [files, List.forall_mem_cons, List.not_mem_nil, false_implies, implies_true, and_true]
  constructor
  · intro data hdata
    have hold : outdatedDesk.fileAt? (targetPath ⟨"", []⟩ "api.ts") = some (Text.encode "old") := by
      decide +kernel
    obtain rfl := Option.some_inj.mp (hold.symm.trans hdata)
    exact ⟨"old", by decide +kernel, by decide +kernel⟩
  · intro data hdata
    have hnone : outdatedDesk.fileAt? (targetPath ⟨"", []⟩ "definitions.ts") = none := by
      decide +kernel
    rw [hnone] at hdata
    cases hdata

/-- A file with other line ends than its text is left as it is. -/
theorem not_delivered_line_ends :
    IsTarget outdatedDesk (targetPath ⟨"", []⟩ "client.ts") ∧
      ¬ Delivered outdatedDesk ⟨"", []⟩ [("client.ts", "new\n")]
        (writeAll noRefusals outdatedDesk ⟨"", []⟩ [("client.ts", "new\n")]) := by
  refine ⟨⟨by decide +kernel, Or.inl ⟨Text.encode "new\r\n", by decide +kernel⟩⟩, fun h => ?_⟩
  exact absurd (h.exact _ List.mem_cons_self) (by decide +kernel)

end TypedClient.Store

import TypedClient.Proofs.Store.Delivery

/-!
# Runs that are repeated

A run leaves each file that it came to in a state in which the next run takes it for up to date,
unless its text holds a carriage return: reading gives none back, so such a file is replaced every
time.  A file at which a run fails is left as it is, and the next run fails there again.  So the
second of two equal runs changes nothing exactly if no text that was written holds a carriage
return.

* `Holds`: the file at a path has the bytes of a text or reads as it.
* `bringUpToDate_fault`: a file that cannot be brought up to date keeps its bytes and cannot be
  brought up to date the next time either.
* `Halted`, `exists_halted_of_writeAll`: what a run leaves for the next one.
* `writeAll_twice`: when the second of two equal runs changes nothing.
-/

namespace TypedClient.Store

variable {s t : Store} {p : Path} {data : ByteArray} {text : String}

/-! ## One file -/

/-- The file at a path has the bytes of a text or reads as it. -/
def Holds (s : Store) (p : Path) (text : String) : Prop :=
  ∃ data, s.fileAt? p = some data ∧
    (data = Text.encode text ∨ Text.readLines? data = some text)

theorem takes_of_fileAt? (h : s.fileAt? p = some data) : Takes s p := by
  obtain ⟨hlocate, hfile⟩ := fileAt?_eq_some_iff.mp h
  refine ⟨hlocate, fun hdirectory => ?_⟩
  rw [fileIn_eq_none_of_directory hdirectory] at hfile
  cases hfile

/-- A file whose text has no carriage return is taken for up to date. -/
theorem Holds.bringUpToDate_of_notMem (h : Holds s p text) (hreturn : '\r' ∉ text.toList) :
    bringUpToDate (noRefusals p) s p text = (s, .ok false) := by
  obtain ⟨data, hfile, hdata⟩ := h
  have hread : Text.readLines? data = some text := by
    rcases hdata with rfl | hread
    · exact Text.readLines?_encode hreturn
    · exact hread
  have hseen : s.textAt? p = some text := by rw [textAt?, hfile, Option.bind_some, hread]
  rcases bringUpToDate_cases s p text with ⟨⟨data', hfile', hnone⟩, -⟩ | ⟨-, hbring⟩ |
    ⟨-, hnot, -⟩
  · rw [textAt?, hfile', Option.bind_some, hnone] at hseen
    cases hseen
  · exact hbring
  · exact absurd hseen hnot

/-- A file whose text has a carriage return is replaced. -/
theorem Holds.bringUpToDate_of_mem (h : Holds s p text) (hreturn : '\r' ∈ text.toList) :
    ∃ t, bringUpToDate (noRefusals p) s p text = (t, .ok true) := by
  obtain ⟨data, hfile, hdata⟩ := h
  have hbytes : data = Text.encode text :=
    hdata.resolve_right fun hread => Text.notMem_of_readLines? hread hreturn
  rcases bringUpToDate_cases s p text with ⟨⟨data', hfile', hnone⟩, -⟩ | ⟨hseen, -⟩ |
    ⟨-, -, ⟨t, -, hbring⟩ | ⟨t, fault, hreplace, -⟩⟩
  · rw [hfile] at hfile'
    obtain rfl := Option.some_inj.mp hfile'
    rw [Text.readLines?, hbytes, Text.decode?_encode] at hnone
    cases hnone
  · obtain ⟨found, -, hread⟩ := Option.bind_eq_some_iff.mp hseen
    exact absurd hreturn (Text.notMem_of_readLines? hread)
  · exact ⟨t, hbring⟩
  · obtain ⟨u, hu⟩ := (takes_of_fileAt? hfile).exists_replaceFile (Text.encode text)
    rw [hu] at hreplace
    cases hreplace

/-- A file that cannot be brought up to date is left as it is, and cannot be brought up to date the
next time either. -/
theorem bringUpToDate_fault {fault : WriteFault}
    (h : bringUpToDate (noRefusals p) s p text = (t, .error fault)) :
    Grows s t ∧ SameFiles s t ∧
      ∃ u fault', bringUpToDate (noRefusals p) t p text = (u, .error fault') ∧ SameFiles t u := by
  rcases bringUpToDate_cases s p text with ⟨-, hbring⟩ | ⟨-, hbring⟩ |
    ⟨-, -, ⟨u, -, hbring⟩ | ⟨u, fault', hreplace, hbring⟩⟩
  · rw [hbring] at h
    obtain rfl := (Prod.mk.inj h).1
    exact ⟨.refl s, .refl s, s, _, hbring, .refl s⟩
  · rw [hbring] at h
    cases h
  · rw [hbring] at h
    cases h
  · rw [hbring] at h
    obtain rfl := (Prod.mk.inj h).1
    obtain ⟨hgrows, hsame, v, again, hagain⟩ := replaceFile_fault hreplace
    refine ⟨hgrows, hsame, ?_⟩
    rcases bringUpToDate_cases u p text with ⟨-, hbring'⟩ | ⟨hseen, -⟩ |
      ⟨-, -, ⟨w, hreplace', -⟩ | ⟨w, fault'', hreplace', hbring'⟩⟩
    · exact ⟨u, _, hbring', .refl u⟩
    · -- no file is found where none can be put
      obtain ⟨data, hfile, -⟩ := Option.bind_eq_some_iff.mp hseen
      obtain ⟨w, hw⟩ := (takes_of_fileAt? hfile).exists_replaceFile (Text.encode text)
      rw [hw] at hagain
      cases hagain
    · rw [hreplace'] at hagain
      cases hagain
    · exact ⟨w, _, hbring', (replaceFile_fault hreplace').2.1⟩

/-! ## Runs -/

variable {directory : Path} {files done rest : List (String × String)}

/-- What a run leaves that halted behind the files `done`: each of them holds its text, paths lead
where they did, no other file has changed, and the file at which it failed, if it did, makes the
next run fail too. -/
structure Halted (s : Store) (directory : Path) (done rest : List (String × String)) (w : Written) :
    Prop where
  grows : Grows s w.store
  untouched : ∀ l, (∀ f ∈ done, l ≠ s.place directory f.1) → w.store.fileIn l = s.fileIn l
  holds : ∀ f ∈ done, Holds w.store (targetPath directory f.1) f.2
  remains : Remains directory rest w.fault
  fails : ∀ f more, rest = f :: more → ∃ u fault,
    bringUpToDate (noRefusals (targetPath directory f.1)) w.store (targetPath directory f.1) f.2 =
      (u, .error fault) ∧ SameFiles w.store u

/-- Every run halts behind some of its files. -/
theorem exists_halted_of_writeAll (s : Store) (directory : Path) (files : List (String × String))
    (hdistinct : (files.map fun f => s.place directory f.1).Nodup) :
    ∃ done rest, files = done ++ rest ∧
      Halted s directory done rest (writeAll noRefusals s directory files) := by
  induction files generalizing s with
  | nil => exact ⟨[], [], rfl, .refl s, fun _ _ => rfl, by simp, rfl, by simp⟩
  | cons f rest ih =>
    obtain ⟨name, text⟩ := f
    rw [List.map_cons, List.nodup_cons] at hdistinct
    rcases hbring : bringUpToDate (noRefusals (targetPath directory name)) s
      (targetPath directory name) text with ⟨t, fault | isChanged⟩
    · obtain ⟨hgrows, hsame, hagain⟩ := bringUpToDate_fault hbring
      rw [writeAll_cons_of_error hbring]
      refine ⟨[], (name, text) :: rest, rfl, hgrows, fun l _ => hsame.fileIn l, by simp,
        ⟨_, rest, rfl, rfl⟩, fun f more heq => ?_⟩
      obtain ⟨rfl, -⟩ := List.cons.inj heq
      exact hagain
    · obtain ⟨data, hclear, hplaced, hdata⟩ := exists_placed_of_bringUpToDate hbring
      have hplace : ∀ g : String × String, t.place directory g.1 = s.place directory g.1 :=
        fun g => place_of_here hplaced.here g.1
      obtain ⟨done, remaining, rfl, hhalted⟩ := ih t (by simpa only [hplace] using hdistinct.2)
      have huntouched := hhalted.untouched
      simp only [hplace] at huntouched
      rw [writeAll_cons_of_ok hbring]
      refine ⟨(name, text) :: done, remaining, rfl, (hplaced.grows hclear).trans hhalted.grows,
        fun l hl => ?_, List.forall_mem_cons.mpr ⟨⟨data, ?_, ?_⟩, hhalted.holds⟩,
        hhalted.remains, hhalted.fails⟩
      · rw [List.forall_mem_cons] at hl
        exact (huntouched l hl.2).trans (hplaced.fileIn_of_ne hclear hl.1)
      · -- the files behind it leave the file where it was put
        refine hhalted.grows.fileAt? (huntouched _ fun g hg heq => hdistinct.1 ?_)
          (hplaced.fileAt? hclear)
        rw [destination_of_here hplaced.here] at heq
        exact List.mem_map.mpr ⟨g, List.mem_append_left _ hg, heq.symm⟩
      · rcases hdata with ⟨-, rfl, -⟩ | ⟨-, hfound, hseen⟩
        · exact Or.inl rfl
        · rw [textAt?, hfound, Option.bind_some] at hseen
          exact Or.inr hseen

/-- A run passes files that hold their texts, if these have no carriage return. -/
theorem writeAll_of_holds (hholds : ∀ f ∈ done, Holds s (targetPath directory f.1) f.2)
    (hreturns : ∀ f ∈ done, '\r' ∉ f.2.toList) :
    writeAll noRefusals s directory (done ++ rest) = writeAll noRefusals s directory rest := by
  induction done with
  | nil => rfl
  | cons f done ih =>
    rw [List.forall_mem_cons] at hholds hreturns
    rw [List.cons_append, writeAll_cons_of_ok (hholds.1.bringUpToDate_of_notMem hreturns.1),
      ih hholds.2 hreturns.2]
    rfl

/-- A run replaces the first file whose text has a carriage return, if those before it hold their
texts. -/
theorem changed_ne_nil_of_holds (rest : List (String × String))
    (hholds : ∀ f ∈ done, Holds s (targetPath directory f.1) f.2)
    (hreturn : ∃ f ∈ done, '\r' ∈ f.2.toList) :
    (writeAll noRefusals s directory (done ++ rest)).changed ≠ [] := by
  induction done with
  | nil =>
    obtain ⟨f, hf, -⟩ := hreturn
    cases hf
  | cons f done ih =>
    rw [List.forall_mem_cons] at hholds
    by_cases hfirst : '\r' ∈ f.2.toList
    · obtain ⟨t, hbring⟩ := hholds.1.bringUpToDate_of_mem hfirst
      rw [List.cons_append, writeAll_cons_of_ok hbring]
      exact List.cons_ne_nil _ _
    · rw [List.cons_append, writeAll_cons_of_ok (hholds.1.bringUpToDate_of_notMem hfirst)]
      obtain ⟨g, hg, hmem⟩ := hreturn
      refine ih hholds.2 ⟨g, (List.mem_cons.mp hg).resolve_left ?_, hmem⟩
      rintro rfl
      exact hfirst hmem

/-- The files of a run that halted are left as they are by the next one, if no text has a carriage
return. -/
theorem Halted.quiet {w : Written} (h : Halted s directory done rest w)
    (hreturns : ∀ f ∈ done, '\r' ∉ f.2.toList) :
    (writeAll noRefusals w.store directory (done ++ rest)).changed = [] ∧
      SameFiles w.store (writeAll noRefusals w.store directory (done ++ rest)).store := by
  rw [writeAll_of_holds h.holds hreturns]
  cases hrest : rest with
  | nil => exact ⟨rfl, .refl _⟩
  | cons f more =>
    obtain ⟨u, fault, hbring, hsame⟩ := h.fails f more hrest
    rw [writeAll_cons_of_error hbring]
    exact ⟨rfl, hsame⟩

/-- The second of two equal runs tells of no file and changes none exactly if no text of the files
that the first one came to has a carriage return. -/
theorem writeAll_twice (s : Store) (directory : Path) (files : List (String × String))
    (hdistinct : (files.map fun f => s.place directory f.1).Nodup) :
    let first := writeAll noRefusals s directory files
    let second := writeAll noRefusals first.store directory files
    ∃ done rest, files = done ++ rest ∧ Remains directory rest first.fault ∧
      (second.changed = [] ∧ SameFiles first.store second.store ↔
        ∀ f ∈ done, '\r' ∉ f.2.toList) := by
  obtain ⟨done, rest, hfiles, hhalted⟩ := exists_halted_of_writeAll s directory files hdistinct
  refine ⟨done, rest, hfiles, hhalted.remains, fun hquiet f hf hreturn => ?_, fun hreturns => ?_⟩
  · have hchanged := changed_ne_nil_of_holds rest hhalted.holds ⟨f, hf, hreturn⟩
    rw [← hfiles] at hchanged
    exact hchanged hquiet.1
  · have hquiet := hhalted.quiet hreturns
    rw [← hfiles] at hquiet
    exact hquiet

end TypedClient.Store

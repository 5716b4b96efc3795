import TypedClient.Proofs.Store.Ways
import TypedClient.Store.Writing
import TypedClient.Text.Digits

/-!
# Files that can be placed

If no step is refused, a file is replaced exactly if the directories in front of it can be created
and it does not turn out to be a directory itself: a name for the temporary file is always free.
Afterwards there is the file at the path's destination, a directory at every location that the path
leads through, and everything else is what it was.

* `exists_temporaryIn?`: a name for the temporary file is free.
* `Takes`, `replaceFile_of_ready`: the two ways in which a replacement ends.
* `Placed`, `Clear`: what replacing a file changes, and the paths at which one can be.
* `placed_of_replaceFile`, `exists_replaceFile`: a file is replaced at the paths that are clear.
* `replaceFile_fault`: what cannot be replaced once cannot be replaced the next time either.
-/

namespace TypedClient.Store

variable {s t ready : Store} {l m directory target temporary : Location} {p : Path}
  {data : ByteArray}

/-! ## Temporary files -/

theorem temporaryName_injective (name : String) : Function.Injective (temporaryName name) := by
  intro i j h
  have hlist := congrArg String.toList h
  simp only [temporaryName, String.toList_append] at hlist
  exact Text.toString_inj.mp
    (String.toList_inj.mp (List.append_cancel_left (List.append_cancel_right hlist)))

theorem lookup_eq_none_of_notMem {entries : List (Location × Entry)}
    (h : l ∉ entries.map Prod.fst) : lookup l entries = none := by
  induction entries with
  | nil => rfl
  | cons entry rest ih =>
    obtain ⟨m, e⟩ := entry
    rw [List.map_cons, List.mem_cons, not_or] at h
    rw [lookup, if_neg (Ne.symm h.1)]
    exact ih h.2

/-- Among one more names than there are entries, one is free. -/
theorem exists_temporaryIn? (s : Store) (directory : Location) (name : String) :
    ∃ l, s.temporaryIn? directory name = some l := by
  rw [← Option.isSome_iff_exists, temporaryIn?, List.find?_isSome]
  by_contra hnone
  have hsub : ((List.range (s.entries.length + 1)).map fun n =>
      directory ++ [temporaryName name n]) ⊆ s.entries.map Prod.fst := by
    intro l hl
    by_contra hfree
    refine hnone ⟨l, hl, ?_⟩
    obtain ⟨n, -, rfl⟩ := List.mem_map.mp hl
    rw [get?, if_neg (by simp), lookup_eq_none_of_notMem hfree]
    rfl
  have hinjective : Function.Injective fun n => directory ++ [temporaryName name n] := by
    intro i j h
    exact temporaryName_injective name (List.singleton_inj.mp (List.append_cancel_left h))
  have hle := (List.nodup_range.map hinjective).length_le_of_subset hsub
  rw [List.length_map, List.length_map, List.length_range] at hle
  omega

/-! ## The temporary file takes its place -/

/-- The stores have the same at each location, and the same working directory. -/
structure SameEntries (s t : Store) : Prop where
  here : t.here = s.here
  get? : ∀ m, t.get? m = s.get? m

/-- Without its temporary file a store is what it was. -/
theorem sameEntries_erase (hfree : s.get? temporary = none) (hne : temporary ≠ []) :
    SameEntries s (((s.put temporary (.file .empty)).put temporary (.file data)).erase
      temporary) := by
  refine ⟨rfl, fun m => ?_⟩
  rw [get?_erase hne, get?_put hne, get?_put hne]
  by_cases hm : m = temporary
  · rw [if_pos hm, hm, hfree]
  · rw [if_neg hm, if_neg hm, if_neg hm]

/-- If no step is refused, the temporary file is filled. -/
theorem fillAndTakePlace_eq (s : Store) (temporary target : Location) (data : ByteArray) :
    fillAndTakePlace (fun _ => false) s temporary target data =
      takePlace (fun _ => false) ((s.put temporary (.file .empty)).put temporary (.file data))
        temporary target data := rfl

/-- A temporary file takes the place of what is at a location, if no directory is there. -/
theorem exists_fillAndTakePlace (hfree : s.get? temporary = none) (hne : temporary ≠ [])
    (htarget : s.get? target ≠ some .directory) :
    ∃ t, fillAndTakePlace (fun _ => false) s temporary target data = (t, none) ∧ t.here = s.here ∧
      ∀ m, t.get? m = if m = target then some (.file data) else s.get? m := by
  have hfilled : ((s.put temporary (.file .empty)).put temporary (.file data)).get? target ≠
      some .directory := by
    rw [get?_put hne, get?_put hne]
    split
    · rintro ⟨⟩
    · exact htarget
  refine ⟨(((s.put temporary (.file .empty)).put temporary (.file data)).erase temporary).put target
    (.file data), ?_, rfl, fun m => ?_⟩
  · rw [fillAndTakePlace_eq, takePlace]
    split
    · rename_i hdirectory
      exact absurd hdirectory hfilled
    · rw [if_neg Bool.false_ne_true]
  · rw [get?_put (ne_nil_of_get?_ne htarget), (sameEntries_erase hfree hne).get?]

/-- A temporary file takes no place where a directory is, and leaves nothing behind. -/
theorem exists_fillAndTakePlace_fault (hfree : s.get? temporary = none) (hne : temporary ≠ [])
    (htarget : s.get? target = some .directory) :
    ∃ t fault, fillAndTakePlace (fun _ => false) s temporary target data = (t, some fault) ∧
      SameEntries s t := by
  have hapart : target ≠ temporary := by
    rintro rfl
    rw [hfree] at htarget
    cases htarget
  have hfilled : ((s.put temporary (.file .empty)).put temporary (.file data)).get? target =
      some .directory := by
    rw [get?_put hne, get?_put hne, if_neg hapart, if_neg hapart, htarget]
  refine ⟨((s.put temporary (.file .empty)).put temporary (.file data)).erase temporary,
    .isDirectory, ?_, sameEntries_erase hfree hne⟩
  rw [fillAndTakePlace_eq, takePlace, hfilled]
  rfl

/-! ## Replacing a file -/

/-- A path leads to its destination, and no directory is there. -/
def Takes (s : Store) (p : Path) : Prop :=
  s.locate p = .ok (s.destination p) ∧ s.get? (s.destination p) ≠ some .directory

theorem SameEntries.takes_iff (h : SameEntries s t) : Takes t p ↔ Takes s p := by
  simp only [Takes, locate_eq_ok_iff, h.get?, way_of_here h.here, destination_of_here h.here]

theorem wayFrom_dropLast_subset (l : Location) (parts : List String) :
    wayFrom l parts.dropLast ⊆ wayFrom l parts := by
  induction parts generalizing l with
  | nil => exact List.Subset.refl _
  | cons part rest ih =>
    cases rest with
    | nil => exact List.nil_subset _
    | cons next rest =>
      rw [List.dropLast_cons_cons, wayFrom, wayFrom]
      exact List.cons_subset_cons _ (ih _)

/-- A path that leads to its destination has a directory in front of it. -/
theorem locate_parent (h : s.locate p = .ok l) :
    s.locate p.parent = .ok (s.destination p.parent) := by
  rw [locate_eq_ok_iff] at h ⊢
  exact ⟨fun k hk => h.1 k (wayFrom_dropLast_subset _ _ hk), rfl⟩

/-- Once the directories are there, a file is placed exactly if the path takes one; else everything
is left as it is. -/
theorem replaceFile_of_ready (data : ByteArray) (h : s.makeDirectories p.parent = .ok ready) :
    (Takes ready p ∧ ∃ t, replaceFile (fun _ => false) s p data = (t, none) ∧
      t.here = ready.here ∧
      ∀ m, t.get? m = if m = ready.destination p then some (.file data) else ready.get? m) ∨
    (¬ Takes ready p ∧ ∃ t fault, replaceFile (fun _ => false) s p data = (t, some fault) ∧
      SameEntries ready t) := by
  rcases Outcome.ok_or_error (ready.locate p) with ⟨target, htarget⟩ | ⟨fault, hfault⟩
  · have hparent := locate_parent htarget
    rw [eq_destination_of_locate htarget] at htarget
    obtain ⟨temporary, htemporary⟩ :=
      exists_temporaryIn? ready (ready.destination p.parent) p.name
    have hfree := get?_of_temporaryIn? htemporary
    have hne := temporaryIn?_ne_nil htemporary
    have hprepare : prepare (fun _ => false) s p =
        (ready, .ok ⟨temporary, ready.destination p⟩) := by
      rw [prepare, if_neg Bool.false_ne_true, h]
      dsimp only
      rw [hparent, htarget]
      dsimp only
      rw [htemporary]
      dsimp only
      rw [if_neg Bool.false_ne_true]
    rw [replaceFile, hprepare]
    by_cases hdirectory : ready.get? (ready.destination p) = some .directory
    · refine Or.inr ⟨fun htakes => htakes.2 hdirectory, ?_⟩
      exact exists_fillAndTakePlace_fault hfree hne hdirectory
    · refine Or.inl ⟨⟨htarget, hdirectory⟩, ?_⟩
      exact exists_fillAndTakePlace hfree hne hdirectory
  · refine Or.inr ⟨fun htakes => ?_, ?_⟩
    · rw [Takes, hfault] at htakes
      cases htakes.1
    · have hprepare : ∃ fault', prepare (fun _ => false) s p = (ready, .error fault') := by
        rw [prepare, if_neg Bool.false_ne_true, h]
        dsimp only
        rw [hfault]
        rcases Outcome.ok_or_error (ready.locate p.parent) with ⟨l, hl⟩ | ⟨fault', hfault'⟩
        · rw [hl]
          exact ⟨fault, rfl⟩
        · rw [hfault']
          exact ⟨fault', rfl⟩
      obtain ⟨fault', hprepare⟩ := hprepare
      rw [replaceFile, hprepare]
      exact ⟨ready, fault', rfl, rfl, fun _ => rfl⟩

/-- Where the directories in front of a file cannot be created, nothing else is. -/
theorem replaceFile_of_fault {fault : Fault} (data : ByteArray)
    (h : s.makeDirectories p.parent = .error fault) :
    replaceFile (fun _ => false) s p data = (s.makeDirectoriesUpTo p.parent, some fault) := by
  rw [replaceFile, prepare, if_neg Bool.false_ne_true, h]

/-- Directories that cannot be created cannot be created the next time either. -/
theorem exists_fault_of_makeDirectories {fault : Fault}
    (h : s.makeDirectories p.parent = .error fault) :
    ∃ fault', (s.makeDirectoriesUpTo p.parent).makeDirectories p.parent = .error fault' := by
  have hsame := sameFiles_makeDirectoriesUpTo s p.parent
  rcases Outcome.ok_or_error ((s.makeDirectoriesUpTo p.parent).makeDirectories p.parent) with
    hagain | hagain
  · rw [exists_makeDirectories_iff, startOf, hsame.here] at hagain
    simp only [hsame.fileIn] at hagain
    obtain ⟨t, ht⟩ := exists_makeDirectories_iff.mpr hagain
    rw [h] at ht
    cases ht
  · exact hagain

/-! ## Placed files -/

/-- A file was put at a path: it is at the path's destination, the path leads there through
directories, and everything else is what it was. -/
structure Placed (s t : Store) (p : Path) (data : ByteArray) : Prop where
  here : t.here = s.here
  get? : ∀ m, t.get? m = if m = s.destination p then some (.file data)
    else if m ∈ s.way p then some .directory else s.get? m

/-- A file can be put at a path: no regular file is where it leads through, and no directory is at
its destination or gets there on the way. -/
structure Clear (s : Store) (p : Path) : Prop where
  free : ∀ l ∈ s.way p, s.fileIn l = none
  target : s.get? (s.destination p) ≠ some .directory
  apart : s.destination p ∉ s.way p

/-- A file that was replaced was put at its path, which was clear. -/
theorem placed_of_replaceFile (h : replaceFile (fun _ => false) s p data = (t, none)) :
    Clear s p ∧ Placed s t p data := by
  rcases Outcome.ok_or_error (s.makeDirectories p.parent) with ⟨ready, hready⟩ | ⟨fault, hfault⟩
  · have hsame := sameFiles_of_makeDirectories hready
    have hway := way_of_here hsame.here p
    have hdestination := hsame.destination p
    rcases replaceFile_of_ready data hready with
      ⟨⟨hlocate, htarget⟩, u, hu, hhere, hget⟩ | ⟨-, u, fault, hu, -⟩
    · rw [hu] at h
      obtain rfl := (Prod.mk.inj h).1
      obtain ⟨hdirectories, -⟩ := locate_eq_ok_iff.mp hlocate
      rw [hway] at hdirectories
      rw [hdestination] at htarget hget
      have hapart : s.destination p ∉ s.way p := fun hmem => htarget (hdirectories _ hmem)
      refine ⟨⟨fun l hl => ?_, ?_, hapart⟩, hhere.trans hsame.here, fun m => ?_⟩
      · rw [← hsame.fileIn]
        exact fileIn_eq_none_of_directory (hdirectories l hl)
      · exact fun hdirectory =>
          htarget ((grows_of_makeDirectories hready).directory _ hdirectory)
      · rw [hget]
        by_cases hm : m ∈ s.way p
        · rw [if_pos hm, hdirectories m hm]
        · have hstops : m ∉ stopsFrom (s.startOf p) p.parts.dropLast :=
            fun hmem => hm (stopsFrom_subset_wayFrom _ _ hmem)
          rw [if_neg hm, get?_of_makeDirectories hready, if_neg hstops]
    · rw [hu] at h
      cases h
  · rw [replaceFile_of_fault data hfault] at h
    cases h

/-- A file is replaced at a path that is clear and starts at a directory. -/
theorem exists_replaceFile (h : Clear s p) (hstart : s.get? (s.startOf p) = some .directory)
    (data : ByteArray) : ∃ t, replaceFile (fun _ => false) s p data = (t, none) := by
  obtain ⟨ready, hready⟩ := exists_makeDirectories_iff.mpr fun k hk =>
    h.free k (stopsFrom_subset_wayFrom _ _ hk)
  have hhere := (sameFiles_of_makeDirectories hready).here
  have hget := get?_of_makeDirectories hready
  have htakes : Takes ready p := by
    rw [Takes, locate_eq_ok_iff, way_of_here hhere, destination_of_here hhere]
    refine ⟨⟨fun k hk => ?_, rfl⟩, ?_⟩
    · rw [hget]
      split
      · rfl
      · rename_i hstops
        -- the only location on the way that is no stop is the start
        suffices hk' : k = s.startOf p by rw [hk', hstart]
        rw [way] at hk
        cases hparts : p.parts with
        | nil =>
          rw [hparts] at hk
          cases hk
        | cons part rest =>
          rw [hparts] at hk hstops
          rw [wayFrom_cons] at hk
          exact (List.mem_cons.mp hk).resolve_right hstops
    · rw [hget, if_neg fun hmem => h.apart (stopsFrom_subset_wayFrom _ _ hmem)]
      exact h.target
  rcases replaceFile_of_ready data hready with ⟨-, t, ht, -⟩ | ⟨hnot, -⟩
  · exact ⟨t, ht⟩
  · exact absurd htakes hnot

/-- Directories that are there already are created without any change. -/
theorem exists_makeDirectories_of_stops
    (h : ∀ k ∈ stopsFrom (s.startOf p) p.parts.dropLast, s.get? k = some .directory) :
    ∃ ready, s.makeDirectories p.parent = .ok ready ∧ SameEntries s ready := by
  obtain ⟨ready, hready⟩ := exists_makeDirectories_iff.mpr fun k hk =>
    fileIn_eq_none_of_directory (h k hk)
  refine ⟨ready, hready, (sameFiles_of_makeDirectories hready).here, fun m => ?_⟩
  rw [get?_of_makeDirectories hready]
  split
  · rename_i hm
    rw [h m hm]
  · rfl

/-- A file is replaced at a path that takes one. -/
theorem Takes.exists_replaceFile (h : Takes s p) (data : ByteArray) :
    ∃ t, replaceFile (fun _ => false) s p data = (t, none) := by
  obtain ⟨hway, -⟩ := locate_eq_ok_iff.mp h.1
  obtain ⟨ready, hready, hsame⟩ := exists_makeDirectories_of_stops fun k hk =>
    hway k (stopsFrom_subset_wayFrom _ _ hk)
  rcases replaceFile_of_ready data hready with ⟨-, t, ht, -⟩ | ⟨hnot, -⟩
  · exact ⟨t, ht⟩
  · exact absurd (hsame.takes_iff.mpr h) hnot

/-- A replacement that fails leaves the files as they are and all directories in place, and the path
takes no file afterwards either. -/
theorem replaceFile_fault {fault : Fault}
    (h : replaceFile (fun _ => false) s p data = (t, some fault)) :
    Grows s t ∧ SameFiles s t ∧
      ∃ u fault', replaceFile (fun _ => false) t p data = (u, some fault') := by
  rcases Outcome.ok_or_error (s.makeDirectories p.parent) with ⟨ready, hready⟩ | ⟨fault', hfault⟩
  · rcases replaceFile_of_ready data hready with ⟨-, u, hu, -⟩ | ⟨hnot, u, fault', hu, hsame⟩
    · rw [hu] at h
      cases h
    · rw [hu] at h
      obtain rfl := (Prod.mk.inj h).1
      have hgrows := grows_of_makeDirectories hready
      have hfiles := sameFiles_of_makeDirectories hready
      have hhere : u.here = s.here := hsame.here.trans hgrows.here
      have hstart : u.startOf p = s.startOf p := by rw [startOf, startOf, hhere]
      refine ⟨⟨hhere, fun l hl => ?_⟩, ⟨hhere, fun l => ?_⟩, ?_⟩
      · rw [hsame.get?]
        exact hgrows.directory l hl
      · rw [← hfiles.fileIn, fileIn, fileIn, hsame.get?]
      · obtain ⟨again, hagain, hsame'⟩ := exists_makeDirectories_of_stops (s := u) (p := p)
          fun k hk => by
            rw [hstart] at hk
            rw [hsame.get?, get?_of_makeDirectories hready, if_pos hk]
        rcases replaceFile_of_ready data hagain with ⟨htakes, -⟩ | ⟨-, v, fault'', hv, -⟩
        · exact absurd (hsame.takes_iff.mp (hsame'.takes_iff.mp htakes)) hnot
        · exact ⟨v, fault'', hv⟩
  · rw [replaceFile_of_fault data hfault] at h
    obtain rfl := (Prod.mk.inj h).1
    obtain ⟨fault'', hagain⟩ := exists_fault_of_makeDirectories hfault
    exact ⟨grows_makeDirectoriesUpTo s _, sameFiles_makeDirectoriesUpTo s _, _, fault'',
      replaceFile_of_fault data hagain⟩

end TypedClient.Store

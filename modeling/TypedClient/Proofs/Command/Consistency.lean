import TypedClient.Proofs.Command.Attempt

/-!
# Exit code, files and summary of a generation

Whoever runs a generation learns how it went from its exit code, from the files and, if it was asked
for, from the summary.  The three never contradict each other: a success means that all files are up
to date, a client that could not be made leaves its file alone, a document that is wrong leaves
everything alone, and the summary names the files that were replaced.

The converse of the first needs a condition.  A generation that has done all its work still crashes
if a line about one of its files, put into markup as it is, closes a tag that is not open.

* `Attempt.Replaces`: paths that are exactly those of the replaced files.
* `Attempt.Consistent`: how exit code, files and summary fit together.
* `Attempt.consistent_outcome`: they do so in every generation.
* `Attempt.not_success_of_brackets`: a generation that does all its work need not be a success.
-/

namespace TypedClient.Command.Attempt

open Store (UpToDate)

variable {a : Attempt} {d : Document} {o : Outcome}

/-! ## Exit code, files and summary -/

/-- The paths are exactly those of the generated files that were replaced on the way to a store:
these did not read as their texts before and hold them now, and no other file has changed. -/
structure Replaces (a : Attempt) (d : Document) (written : List Path) (t : Store) : Prop where
  sublist : written.Sublist ((a.files d).map fun f => Store.targetPath a.directory f.1)
  replaced : ∀ f ∈ a.files d, Store.targetPath a.directory f.1 ∈ written →
    a.world.store.textAt? (Store.targetPath a.directory f.1) ≠ some f.2 ∧
      t.fileIn (a.place f.1) = some (Text.encode f.2)
  kept : ∀ l, (∀ f ∈ a.files d, Store.targetPath a.directory f.1 ∈ written → l ≠ a.place f.1) →
    t.fileIn l = a.world.store.fileIn l

/-- Exit code, files and summary of a generation fit together. -/
structure Consistent (a : Attempt) (o : Outcome) : Prop where
  /-- A preview changes no file but the log of a crash, and that only if it crashes. -/
  preview : a.globals.isDryRun = true → (o.exitCode ≠ 1 → o.store = a.world.store) ∧
    ∀ l, l ≠ a.world.store.destination a.world.crashLog →
      o.store.fileIn l = a.world.store.fileIn l
  /-- It is a success exactly if the document was loaded, both files were made and brought up to
  date, and no announcement closes a tag that is not open. -/
  success : o.exitCode = 0 ↔ ∃ d, a.loaded = .ok d ∧ (a.generation d).isComplete = true ∧
    (a.globals.isDryRun = false → a.Delivers d) ∧ ∀ m ∈ a.announcements d, m.isSome
  /-- Without colours every announcement can be shown. -/
  announced : a.console.hasColor = false → ∀ d, ∀ m ∈ a.announcements d, m.isSome
  /-- A success leaves the store with the files brought up to date. -/
  delivered : o.exitCode = 0 → a.globals.isDryRun = false → ∃ d, a.loaded = .ok d ∧
    ∀ f ∈ a.files d, UpToDate a.world.store o.store (a.place f.1) f.2
  /-- Only the client can fail to be made; then the library is up to date and the file of the client
  is untouched. -/
  clientFailed : o.exitCode = 8 → ∃ d clash, a.loaded = .ok d ∧
    (a.generation d).client = .error clash ∧ (a.globals.isDryRun = false →
      UpToDate a.world.store o.store (a.place a.settings.definitionsFile)
        (Source.definitionsText (a.generation d).library.declarations) ∧
      o.store.fileIn (a.place a.settings.clientFile) =
        a.world.store.fileIn (a.place a.settings.clientFile))
  /-- A document that is wrong leaves everything as it is. -/
  unloaded : o.exitCode = 7 → o.store = a.world.store
  /-- The summary, if there is one, is one map that tells whether the generation is a success and
  which paths were replaced. -/
  summary : a.globals.asJson = true → o.streams.output = "" ∨ ∃ d report written,
    a.loaded = .ok d ∧ o.streams.output = Json.write report ++ "\n" ∧
    report.get? "ok" = some (.bool (decide (o.exitCode = 0))) ∧
    report.get? "written" = some (.list (written.map fun p => .text p.text)) ∧
    a.Replaces d written o.store

theorem isSome_of_mem_announcements (h : a.console.hasColor = false) {m : Option Streams}
    (hm : m ∈ a.announcements d) : m.isSome := by
  have hdebug : ∀ line, (a.console.debug? line).isSome := by
    intro line
    rw [Console.debug?]
    split
    · exact Console.isSome_of_hasColor_eq_false h _ _
    · rfl
  rcases List.mem_append.mp hm with hm | hm
  · rcases List.mem_cons.mp hm with rfl | hm
    · exact hdebug _
    · obtain rfl := List.mem_singleton.mp hm
      exact hdebug _
  · split at hm
    · exact absurd hm List.not_mem_nil
    · obtain ⟨line, -, rfl⟩ := List.mem_map.mp hm
      rw [Console.success?]
      split
      · rfl
      · exact Console.isSome_of_hasColor_eq_false h _ _

theorem format_console (h : a.globals.asJson = true) : a.console.format = .json := by
  rw [console, consoleFor, h]
  rfl

/-- Files that were all written without a fault were all delivered. -/
theorem ran_of_fault_eq_none (h : (a.writing d).fault = none) :
    Store.Ran a.world.store a.directory (a.files d) (a.writing d).store (a.writing d).changed :=
  Store.ran_of_fault_eq_none (a.nodup_places d) h

theorem delivers_of_fault_eq_none (h : (a.writing d).fault = none) : a.Delivers d :=
  ⟨h, fun f hf => ((ran_of_fault_eq_none h).settled f hf).upToDate⟩

theorem Stopped.exitCode_ne_zero (h : a.Stopped o) : o.exitCode ≠ 0 := by
  rcases h.exitCode with hexit | ⟨hexit, -⟩
  · rw [hexit]
    decide
  · rw [hexit]
    decide

theorem Concluded.exitCode_eq_zero_iff (h : a.Concluded d o) :
    o.exitCode = 0 ↔ (a.generation d).isComplete = true := by
  rw [h.exitCode]
  cases (a.generation d).isComplete with
  | true => exact iff_of_true rfl rfl
  | false => exact iff_of_false (by decide) Bool.false_ne_true

theorem Concluded.store_of_delivered (h : a.Concluded d o) (hdry : a.globals.isDryRun = false) :
    o.store = (a.writing d).store := by
  rw [h.store, hdry, if_neg Bool.false_ne_true]

/-- The paths that a generation which comes to its end names were replaced, and no others. -/
theorem Concluded.replaces (h : a.Concluded d o) : a.Replaces d (a.changed d) o.store := by
  cases hdry : a.globals.isDryRun with
  | true =>
    have hstore : o.store = a.world.store := by rw [h.store, hdry, if_pos rfl]
    have hchanged : a.changed d = [] := by rw [changed, hdry, if_pos rfl]
    rw [hstore, hchanged]
    exact ⟨List.nil_sublist _, fun _ _ hmem => absurd hmem List.not_mem_nil, fun _ _ => rfl⟩
  | false =>
    have hran := ran_of_fault_eq_none (h.completes.fault hdry)
    have hchanged : a.changed d = (a.writing d).changed := by
      rw [changed, hdry, if_neg Bool.false_ne_true]
    rw [h.store_of_delivered hdry, hchanged]
    refine ⟨hran.sublist, fun f hf hmem => (hran.settled f hf).replaced hmem, fun l hl => ?_⟩
    by_cases hplace : ∃ f ∈ a.files d, l = a.place f.1
    · obtain ⟨f, hf, rfl⟩ := hplace
      exact ((hran.settled f hf).left fun hmem => hl f hf hmem rfl).1
    · exact hran.untouched l fun f hf heq => hplace ⟨f, hf, heq⟩

/-- Where the client cannot be made, the library is up to date and nothing else has changed. -/
theorem Concluded.clientFailed {clash : Client.NameClash} (h : a.Concluded d o)
    (hclash : (a.generation d).client = .error clash) (hdry : a.globals.isDryRun = false) :
    UpToDate a.world.store o.store (a.place a.settings.definitionsFile)
        (Source.definitionsText (a.generation d).library.declarations) ∧
      o.store.fileIn (a.place a.settings.clientFile) =
        a.world.store.fileIn (a.place a.settings.clientFile) := by
  have hran := ran_of_fault_eq_none (h.completes.fault hdry)
  have hfiles := files_of_error hclash
  rw [h.store_of_delivered hdry]
  constructor
  · refine (hran.settled (a.settings.definitionsFile, _) ?_).upToDate
    rw [hfiles]
    exact List.mem_singleton_self _
  · refine hran.untouched _ fun f hf heq => ?_
    rw [hfiles, List.mem_singleton] at hf
    rw [hf] at heq
    exact a.files_ne heq.symm

theorem Stopped.consistent (h : a.Stopped o) : a.Consistent o where
  preview hdry := by
    refine ⟨fun hexit => ?_, fun l hl => (h.spares hdry).fileIn hl⟩
    rcases h.spares hdry with hstore | ⟨hcrash, -⟩
    · exact hstore
    · exact absurd hcrash hexit
  success := by
    refine iff_of_false h.exitCode_ne_zero ?_
    rintro ⟨d, hloaded, -, hdelivers, hshown⟩
    exact h.incomplete d ⟨hloaded, fun hdry => (hdelivers hdry).fault, hshown⟩
  announced hcolor _ _ hm := isSome_of_mem_announcements hcolor hm
  delivered hexit := absurd hexit h.exitCode_ne_zero
  clientFailed hexit := by
    rcases h.exitCode with hone | ⟨hseven, -⟩
    · rw [hone] at hexit
      exact absurd hexit (by decide)
    · rw [hseven] at hexit
      exact absurd hexit (by decide)
  unloaded hexit := by
    rcases h.exitCode with hone | ⟨-, hstore⟩
    · rw [hone] at hexit
      exact absurd hexit (by decide)
    · exact hstore
  summary _ := Or.inl h.output

theorem Concluded.consistent (h : a.Concluded d o) : a.Consistent o where
  preview hdry := by
    have hstore : o.store = a.world.store := by rw [h.store, hdry, if_pos rfl]
    exact ⟨fun _ => hstore, fun l _ => by rw [hstore]⟩
  success := by
    rw [h.exitCode_eq_zero_iff]
    constructor
    · intro hcomplete
      exact ⟨d, h.completes.loaded, hcomplete,
        fun hdry => delivers_of_fault_eq_none (h.completes.fault hdry), h.completes.shown⟩
    · rintro ⟨d', hloaded, hcomplete, -⟩
      have heq : d' = d := by
        rw [h.completes.loaded] at hloaded
        exact (Except.ok.inj hloaded).symm
      rw [← heq]
      exact hcomplete
  announced hcolor _ _ hm := isSome_of_mem_announcements hcolor hm
  delivered _ hdry := by
    rw [h.store_of_delivered hdry]
    exact ⟨d, h.completes.loaded, (delivers_of_fault_eq_none (h.completes.fault hdry)).upToDate⟩
  clientFailed hexit := by
    rcases Outcome.ok_or_error (a.generation d).client with ⟨client, hclient⟩ | ⟨clash, hclash⟩
    · have hzero := h.exitCode_eq_zero_iff.mpr (isComplete_iff.mpr ⟨client, hclient⟩)
      rw [hzero] at hexit
      exact absurd hexit (by decide)
    · exact ⟨d, clash, h.completes.loaded, hclash, h.clientFailed hclash⟩
  unloaded hexit := by
    rw [h.exitCode] at hexit
    split at hexit
    · exact absurd hexit (by decide)
    · exact absurd hexit (by decide)
  summary hjson := by
    refine Or.inr ⟨d, _, a.changed d, h.completes.loaded, h.output (format_console hjson), ?_, rfl,
      h.replaces⟩
    have hok : (a.generation d).isComplete = decide (o.exitCode = 0) := by
      rw [Bool.eq_iff_iff, decide_eq_true_iff, h.exitCode_eq_zero_iff]
    show some (Value.bool (a.generation d).isComplete) = _
    rw [hok]

/-- Exit code, files and summary fit together in every generation, with whatever document, files and
options, that has settings by which its two files are different ones. -/
theorem consistent_outcome (a : Attempt) : a.Consistent a.outcome := by
  rcases stopped_or_concluded a with hstopped | ⟨d, hconcluded⟩
  · exact hstopped.consistent
  · exact hconcluded.consistent

/-! ## A directory with brackets -/

/-- A world with an empty directory and a document without operations on standard input. -/
def plainWorld : World where
  store := .empty ["home"]
  input := "\x7b\"openapi\":\"3.0.0\",\"paths\":\x7b\x7d\x7d"
  environment := []
  respond _ := .unreachable ""
  isTerminal := false
  system := "Linux"
  home := ⟨"/", ["home"]⟩
  time := "1"

/-- A generation with colours into a directory whose name looks like a closing tag. -/
def bracketed : Attempt where
  world := plainWorld
  refuses := Store.noRefusals
  globals := {}
  options := { source := "-", directory := "x[/y]" }
  settings := {}
  settings_eq := by rfl
  files_ne := by decide +kernel

/-- Something keeps the generation from being a success. -/
theorem consistent_outcome_bracketed :
    bracketed.outcome.exitCode = 1 ∧ ¬ ∃ d, bracketed.loaded = .ok d ∧
      (bracketed.generation d).isComplete = true ∧
      (bracketed.globals.isDryRun = false → bracketed.Delivers d) ∧
      ∀ m ∈ bracketed.announcements d, m.isSome := by
  have hexit : bracketed.outcome.exitCode = 1 := by decide +kernel
  refine ⟨hexit, fun hsuccess => ?_⟩
  have hzero : bracketed.outcome.exitCode = 0 :=
    (consistent_outcome bracketed).success.mpr hsuccess
  rw [hexit] at hzero
  exact absurd hzero (by decide)

/-- A generation need not be a success although the document was loaded and both files were made and
brought up to date. -/
theorem not_success_of_brackets :
    ¬ ∀ a : Attempt, a.outcome.exitCode = 0 ↔ ∃ d, a.loaded = .ok d ∧
      (a.generation d).isComplete = true ∧ (a.globals.isDryRun = false → a.Delivers d) := by
  intro hclaim
  have hexit : bracketed.outcome.exitCode = 1 := by decide +kernel
  have hworks : bracketed.loaded.toOption.any (fun d =>
      (bracketed.generation d).isComplete && (bracketed.writing d).fault.isNone) = true := by
    decide +kernel
  have hzero : bracketed.outcome.exitCode = 0 := by
    rw [hclaim]
    rcases hloaded : bracketed.loaded with failure | d
    · rw [hloaded] at hworks
      cases hworks
    · rw [hloaded] at hworks
      obtain ⟨hcomplete, hfault⟩ := Bool.and_eq_true_iff.mp hworks
      exact ⟨d, rfl, hcomplete,
        fun _ => delivers_of_fault_eq_none (Option.isNone_iff_eq_none.mp hfault)⟩
  rw [hexit] at hzero
  exact absurd hzero (by decide)

end TypedClient.Command.Attempt

import TypedClient.Proofs.Command.Endings
import TypedClient.Proofs.Generation.Fit
import TypedClient.Proofs.Store.Writing

/-!
# The ways a generation ends

A generation stops before its files are delivered, or comes to its end.  It stops if the document
cannot be loaded, a file cannot be written or a message cannot be shown; then it has written nothing
to standard output.  If it comes to its end, its exit code tells whether all files were made, and
the store is the one that the files were written to.

* `Attempt`: a generation with settings by which its two files are different ones.
* `Attempt.files_of_ok`, `Attempt.files_of_error`: the files that it makes.
* `Attempt.Completes`: what it takes to come to the end.
* `Attempt.Stopped`, `Attempt.Concluded`: the two ways to end; `Attempt.stopped_or_concluded` says
  that there are no others.
-/

namespace TypedClient.Command

open Store (UpToDate)

/-- A generation with settings by which its two files are different ones. -/
structure Attempt where
  world : World
  refuses : Store.Refusals
  globals : Globals
  options : GenerateOptions
  settings : Settings
  settings_eq : Settings.resolve world.store options.configPath world.environment options.flags =
    .ok settings
  files_ne : world.store.place (Path.ofText options.directory) settings.definitionsFile ≠
    world.store.place (Path.ofText options.directory) settings.clientFile

namespace Attempt

variable {a : Attempt} {d : Document} {o : Outcome}

/-! ## What is done -/

/-- The outcome of the generation. -/
def outcome (a : Attempt) : Outcome :=
  runTask a.world a.refuses a.globals (.generate a.options)

/-- The output of the generation. -/
def console (a : Attempt) : Console := consoleFor a.world a.globals

/-- The directory of the generated files. -/
def directory (a : Attempt) : Path := Path.ofText a.options.directory

/-- Where a generated file is. -/
def place (a : Attempt) (name : String) : Location := a.world.store.place a.directory name

/-- The document, if it can be loaded. -/
def loaded (a : Attempt) : Except Loading.Failure Document :=
  (Loading.load (a.world.contentOf a.options.source)).2

/-- What is generated for a document. -/
def generation (a : Attempt) (d : Document) : Generation := Generation.run d a.settings

/-- The texts of the files that are generated for a document. -/
def files (a : Attempt) (d : Document) : Named String :=
  Source.filesOf (a.generation d).artifacts a.settings.clientName

/-- What becomes of the files that are generated for a document. -/
def writing (a : Attempt) (d : Document) : Store.Written :=
  Store.writeAll a.refuses a.world.store a.directory (a.files d)

/-- The paths of the files that are replaced. -/
def changed (a : Attempt) (d : Document) : List Path :=
  if a.globals.isDryRun then [] else (a.writing d).changed

/-- The lines on the files that were written. -/
def deliveryLines (a : Attempt) (d : Document) : List String :=
  (a.files d).names.map (deliveryLine a.directory (a.writing d).changed)

/-- The announcements before anything is generated: that the document is loaded, and what was. -/
def announcedFirst (a : Attempt) (d : Document) : List (Option Streams) :=
  [a.console.debug? ("Loading document from " ++ a.options.source),
    a.console.debug? (parsedLine d)]

/-- The messages that quote the source, the document or a path without escaping it; behind the first
ones they say what became of each file. -/
def announcements (a : Attempt) (d : Document) : List (Option Streams) :=
  a.announcedFirst d ++
    if a.globals.isDryRun then [] else (a.deliveryLines d).map a.console.success?

/-- All generated files are brought up to date: none is met with a fault, and then each holds its
text or reads as it. -/
structure Delivers (a : Attempt) (d : Document) : Prop where
  fault : (a.writing d).fault = none
  upToDate : ∀ f ∈ a.files d, UpToDate a.world.store (a.writing d).store (a.place f.1) f.2

/-! ## The generated files -/

theorem files_of_ok {client : Artifact} (h : (a.generation d).client = .ok client) :
    a.files d =
      [(a.settings.definitionsFile,
          Source.definitionsText (a.generation d).library.declarations),
        (a.settings.clientFile, Source.clientText client.declarations a.settings.clientName)] :=
  (Generation.filesOf_run_iff h).mpr fun heq => a.files_ne (by rw [heq])

theorem files_of_error {clash : Client.NameClash} (h : (a.generation d).client = .error clash) :
    a.files d = [(a.settings.definitionsFile,
      Source.definitionsText (a.generation d).library.declarations)] := by
  rw [files, Generation.artifacts, h]
  rfl

/-- The generated files are different ones. -/
theorem nodup_places (a : Attempt) (d : Document) :
    ((a.files d).map fun f => a.world.store.place a.directory f.1).Nodup := by
  rcases Outcome.ok_or_error (a.generation d).client with ⟨client, h⟩ | ⟨clash, h⟩
  · rw [files_of_ok h, List.map_cons, List.map_singleton, List.nodup_cons, List.mem_singleton]
    exact ⟨a.files_ne, List.nodup_singleton _⟩
  · rw [files_of_error h, List.map_singleton]
    exact List.nodup_singleton _

theorem isComplete_iff : (a.generation d).isComplete = true ↔
    ∃ client, (a.generation d).client = .ok client := by
  rw [Generation.isComplete, Generation.failures]
  cases (a.generation d).client with
  | ok client => exact iff_of_true rfl ⟨client, rfl⟩
  | error clash =>
    refine iff_of_false Bool.false_ne_true ?_
    rintro ⟨client, h⟩
    cases h

/-! ## The two ways to end -/

/-- The generation comes to its end for a document: it is loaded, its files can be written, and all
announcements can be shown. -/
structure Completes (a : Attempt) (d : Document) : Prop where
  loaded : a.loaded = .ok d
  fault : a.globals.isDryRun = false → (a.writing d).fault = none
  shown : ∀ m ∈ a.announcements d, m.isSome

/-- The generation stops on the way. -/
structure Stopped (a : Attempt) (o : Outcome) : Prop where
  incomplete : ∀ d, ¬ a.Completes d
  exitCode : o.exitCode = 1 ∨ o.exitCode = 7 ∧ o.store = a.world.store
  output : o.streams.output = ""
  spares : a.globals.isDryRun = true → Spares a.world a.world.store o

/-- The generation comes to its end for a document. -/
structure Concluded (a : Attempt) (d : Document) (o : Outcome) : Prop where
  completes : a.Completes d
  exitCode : o.exitCode = if (a.generation d).isComplete then 0 else 8
  store : o.store = if a.globals.isDryRun then a.world.store else (a.writing d).store
  output : a.console.format = .json → o.streams.output =
    Json.write (summary (a.generation d) (a.files d) (a.changed d) a.globals.isDryRun) ++ "\n"

/-- What follows the loading of a document. -/
def behind (a : Attempt) (before : Streams) (d : Document) : Outcome :=
  afterMessages a.world a.console before a.world.store (reportOf a.console (a.generation d))
    fun streams =>
      if a.globals.isDryRun then preview a.world a.console (a.generation d) (a.files d) streams
      else deliver a.world a.refuses a.console a.directory (a.generation d) (a.files d) streams

theorem outcome_eq (a : Attempt) :
    a.outcome = withDocument a.world a.console a.options.source a.behind := by
  show generate a.world a.refuses a.console a.globals.isDryRun a.options = _
  rw [generate, a.settings_eq]
  rfl

theorem deliver_eq (a : Attempt) (d : Document) (before : Streams) :
    deliver a.world a.refuses a.console a.directory (a.generation d) (a.files d) before =
      match (a.writing d).fault with
      | some (p, fault) =>
        ended a.world a.console before (a.writing d).store (endingOfWriting p fault)
      | none =>
        afterMessages a.world a.console before (a.writing d).store
          ((a.deliveryLines d).map a.console.success?) fun streams =>
            conclude a.world a.console (a.generation d) (a.files d) (a.writing d).changed false
              (a.writing d).store streams := rfl

/-! ## Stops -/

theorem stopped_of_crashed {before : Streams} {c : Crash} {s : Store}
    (hincomplete : ∀ d, ¬ a.Completes d) (hbefore : before.output = "")
    (hstore : a.globals.isDryRun = true → s = a.world.store) :
    a.Stopped (crashed a.world a.console before s c) :=
  ⟨hincomplete, Or.inl rfl, (output_crashed c).trans hbefore, fun hdry => by
    rw [hstore hdry]
    exact spares_crashed c⟩

/-- A document that cannot be loaded stops the generation. -/
theorem stopped_of_loading {before : Streams} {failure : Loading.Failure}
    (hfailure : a.loaded = .error failure) (hbefore : before.output = "") :
    a.Stopped (ended a.world a.console before a.world.store (endingOfLoading failure)) := by
  have hincomplete : ∀ d, ¬ a.Completes d := by
    intro d hcompletes
    rw [hcompletes.loaded] at hfailure
    cases hfailure
  cases failure with
  | wrong e =>
    rcases ended_problem_cases e.problem with ⟨hexit, hstore⟩ | hcrashed
    · exact ⟨hincomplete, Or.inr ⟨hexit, hstore⟩, (output_ended _).trans hbefore,
        fun _ => Or.inl hstore⟩
    · rw [endingOfLoading, hcrashed]
      exact stopped_of_crashed hincomplete hbefore fun _ => rfl
  | longNumeral => exact stopped_of_crashed hincomplete hbefore fun _ => rfl
  | scalar fault => exact stopped_of_crashed hincomplete hbefore fun _ => rfl
  | misfit m => exact stopped_of_crashed hincomplete hbefore fun _ => rfl

/-- A file that cannot be written stops the generation. -/
theorem stopped_of_writing {before : Streams} {s : Store} {p : Path} {fault : Store.WriteFault}
    (hincomplete : ∀ d, ¬ a.Completes d) (hbefore : before.output = "")
    (hdelivered : a.globals.isDryRun = false) :
    a.Stopped (ended a.world a.console before s (endingOfWriting p fault)) := by
  have hdry : ¬ a.globals.isDryRun = true := by
    rw [hdelivered]
    exact Bool.false_ne_true
  cases fault with
  | undecodable => exact stopped_of_crashed hincomplete hbefore fun h => absurd h hdry
  | store fault =>
    rcases ended_problem_cases (Store.writeProblem p fault) with ⟨hexit, -⟩ | hcrashed
    · exact ⟨hincomplete, Or.inl hexit, (output_ended _).trans hbefore, fun h => absurd h hdry⟩
    · rw [endingOfWriting, hcrashed]
      exact stopped_of_crashed hincomplete hbefore fun h => absurd h hdry

/-! ## Conclusions -/

/-- The message on files that were not made can always be shown. -/
theorem isSome_error?_failures (c : Console) (clash : Client.NameClash)
    (h : (a.generation d).client = .error clash) :
    (c.error? ("Failed to generate: " ++
      Text.joinWith ", " ((a.generation d).failures.map ArtifactFailure.name))).isSome := by
  have hnames : (a.generation d).failures.map ArtifactFailure.name = ["api"] := by
    rw [Generation.failures, h]
    rfl
  rw [hnames]
  exact Console.isSome_message? (by decide +kernel)

/-- The end of a generation tells whether all files were made, and writes the summary. -/
theorem concluded_of_conclude {before : Streams} {s : Store} (hcompletes : a.Completes d)
    (hstore : s = if a.globals.isDryRun then a.world.store else (a.writing d).store)
    (hbefore : a.console.format = .json → before.output = "") :
    a.Concluded d (conclude a.world a.console (a.generation d) (a.files d) (a.changed d)
      a.globals.isDryRun s before) := by
  have houtput : a.console.format = .json →
      (conclude a.world a.console (a.generation d) (a.files d) (a.changed d) a.globals.isDryRun s
        before).streams.output =
      Json.write (summary (a.generation d) (a.files d) (a.changed d) a.globals.isDryRun) ++
        "\n" := by
    intro hjson
    rw [conclude, output_ended, if_pos hjson]
    show before.output ++ (Json.write _ ++ "\n") = _
    rw [hbefore hjson, String.empty_append]
  rcases Outcome.ok_or_error (a.generation d).client with ⟨client, hclient⟩ | ⟨clash, hclient⟩
  · have hcomplete : (a.generation d).isComplete = true := isComplete_iff.mpr ⟨client, hclient⟩
    have hending : endingOf (a.generation d) = .success := by
      rw [endingOf, if_pos hcomplete]
    refine ⟨hcompletes, ?_, ?_, houtput⟩
    · rw [conclude, hending, if_pos hcomplete]
      rfl
    · rw [conclude, hending, ← hstore]
      rfl
  · have hcomplete : ¬ (a.generation d).isComplete = true := by
      rw [isComplete_iff, hclient]
      rintro ⟨client, h⟩
      cases h
    obtain ⟨shown, hshown⟩ :=
      Option.isSome_iff_exists.mp (isSome_error?_failures a.console clash hclient)
    refine ⟨hcompletes, ?_, ?_, houtput⟩
    · rw [conclude, endingOf, if_neg hcomplete, if_neg hcomplete, ended, Problem.text, hshown]
      rfl
    · rw [conclude, endingOf, if_neg hcomplete, ended, Problem.text, hshown, ← hstore]

/-! ## No others -/

theorem isMessage_reportOf (c : Console) (g : Generation) :
    ∀ m ∈ reportOf c g, Console.IsMessage m := by
  intro m hm
  rcases List.mem_append.mp hm with hm | hm
  · obtain ⟨note, -, rfl⟩ := List.mem_map.mp hm
    exact Console.isMessage_diagnostic? note
  · obtain rfl := List.mem_singleton.mp hm
    exact Console.isMessage_debug? _

/-- The messages on what was generated can always be shown. -/
theorem isSome_of_mem_reportOf (c : Console) (g : Generation) :
    ∀ m ∈ reportOf c g, m.isSome := by
  intro m hm
  rcases List.mem_append.mp hm with hm | hm
  · obtain ⟨note, -, rfl⟩ := List.mem_map.mp hm
    exact Console.isSome_diagnostic? c note
  · obtain rfl := List.mem_singleton.mp hm
    rw [Console.debug?]
    split
    · refine Console.isSome_message? ?_
      cases g.modifiers with
      | true => decide +kernel
      | false => decide +kernel
    · rfl

/-- A preview comes to its end. -/
theorem concluded_preview {before : Streams} (hdry : a.globals.isDryRun = true)
    (hbefore : before.output = "") (hloaded : a.loaded = .ok d)
    (hannounced : ∀ m ∈ a.announcedFirst d, m.isSome) :
    a.Concluded d (preview a.world a.console (a.generation d) (a.files d) before) := by
  have hcompletes : a.Completes d := by
    refine ⟨hloaded, fun h => ?_, ?_⟩
    · rw [hdry] at h
      cases h
    · rw [announcements, hdry, if_pos rfl, List.append_nil]
      exact hannounced
  have hchanged : a.changed d = [] := by rw [changed, hdry, if_pos rfl]
  rw [preview, ← hchanged, ← hdry]
  refine concluded_of_conclude hcompletes (by rw [hdry, if_pos rfl]) fun hjson => ?_
  rw [if_pos hjson]
  exact hbefore

/-- Writing the files stops at one of them, or all are written.  Then the lines on them stop the
generation, or it comes to its end. -/
theorem stopped_or_concluded_deliver {before : Streams} (hdry : a.globals.isDryRun = false)
    (hbefore : before.output = "") (hloaded : a.loaded = .ok d)
    (hannounced : ∀ m ∈ a.announcedFirst d, m.isSome) :
    a.Stopped (deliver a.world a.refuses a.console a.directory (a.generation d) (a.files d)
        before) ∨
      a.Concluded d (deliver a.world a.refuses a.console a.directory (a.generation d) (a.files d)
        before) := by
  have honly : ∀ d', a.Completes d' → d' = d := fun d' h => by
    have heq := h.loaded
    rw [hloaded] at heq
    exact (Except.ok.inj heq).symm
  have hstore : a.globals.isDryRun = true → (a.writing d).store = a.world.store := fun h => by
    rw [hdry] at h
    cases h
  have hannouncements : a.announcements d =
      a.announcedFirst d ++ (a.deliveryLines d).map a.console.success? := by
    rw [announcements, hdry, if_neg Bool.false_ne_true]
  have hmessages : ∀ m ∈ (a.deliveryLines d).map a.console.success?, Console.IsMessage m := by
    intro m hm
    obtain ⟨line, -, rfl⟩ := List.mem_map.mp hm
    exact Console.isMessage_success? line
  rw [deliver_eq]
  cases hfault : (a.writing d).fault with
  | some found =>
    refine Or.inl (stopped_of_writing (fun d' h => ?_) hbefore hdry)
    have hnone := h.fault hdry
    rw [honly d' h, hfault] at hnone
    cases hnone
  | none =>
    dsimp only
    by_cases hshown : ∀ m ∈ (a.deliveryLines d).map a.console.success?, m.isSome
    · have hcompletes : a.Completes d := by
        refine ⟨hloaded, fun _ => hfault, ?_⟩
        rw [hannouncements, List.forall_mem_append]
        exact ⟨hannounced, hshown⟩
      have hchanged : (a.writing d).changed = a.changed d := by
        rw [changed, hdry, if_neg Bool.false_ne_true]
      rw [afterMessages_of_shown hshown, hchanged, ← hdry]
      exact Or.inr (concluded_of_conclude hcompletes (by rw [hdry, if_neg Bool.false_ne_true])
        fun _ => (output_append_inSequence hmessages).trans hbefore)
    · rw [afterMessages_of_not_shown hshown]
      refine Or.inl (stopped_of_crashed (fun d' h => hshown ?_)
        ((output_append_inSequence hmessages).trans hbefore) hstore)
      have hall := h.shown
      rw [honly d' h, hannouncements, List.forall_mem_append] at hall
      exact hall.2

/-- A document that was loaded stops the generation, or it comes to its end for it. -/
theorem stopped_or_concluded_behind {before : Streams} (hbefore : before.output = "")
    (hloaded : a.loaded = .ok d) (hannounced : ∀ m ∈ a.announcedFirst d, m.isSome) :
    a.Stopped (a.behind before d) ∨ a.Concluded d (a.behind before d) := by
  have hreported : (before.append (inSequence (reportOf a.console (a.generation d))).1).output =
      "" := (output_append_inSequence (isMessage_reportOf _ _)).trans hbefore
  rw [behind, afterMessages_of_shown (isSome_of_mem_reportOf _ _)]
  cases hdry : a.globals.isDryRun with
  | true =>
    rw [if_pos rfl]
    exact Or.inr (concluded_preview hdry hreported hloaded hannounced)
  | false =>
    rw [if_neg Bool.false_ne_true]
    exact stopped_or_concluded_deliver hdry hreported hloaded hannounced

/-- A generation stops on the way or comes to its end. -/
theorem stopped_or_concluded (a : Attempt) :
    a.Stopped a.outcome ∨ ∃ d, a.Concluded d a.outcome := by
  have hmessage : ∀ line, ∀ m ∈ [a.console.debug? line], Console.IsMessage m := by
    intro line m hm
    obtain rfl := List.mem_singleton.mp hm
    exact Console.isMessage_debug? _
  rw [outcome_eq, withDocument]
  by_cases hloading : ∀ m ∈ [a.console.debug? ("Loading document from " ++ a.options.source)],
      m.isSome
  · rw [afterMessages_of_shown hloading]
    rcases hload : Loading.load (a.world.contentOf a.options.source) with ⟨warnings, outcome⟩
    have hloaded : a.loaded = outcome := by rw [loaded, hload]
    have hwarned : ((Streams.none.append (inSequence
        [a.console.debug? ("Loading document from " ++ a.options.source)]).1).append
        (.toError (String.join (warnings.map (· ++ "\n"))))).output = "" := by
      show (Streams.none.append _).output ++ "" = ""
      rw [String.append_empty]
      exact output_append_inSequence (hmessage _)
    cases outcome with
    | error failure => exact Or.inl (stopped_of_loading hloaded hwarned)
    | ok d =>
      dsimp only
      by_cases hparsed : ∀ m ∈ [a.console.debug? (parsedLine d)], m.isSome
      · have hannounced : ∀ m ∈ a.announcedFirst d, m.isSome := by
          intro m hm
          rcases List.mem_cons.mp hm with rfl | hm
          · exact hloading _ List.mem_cons_self
          · exact hparsed m hm
        rw [afterMessages_of_shown hparsed]
        rcases stopped_or_concluded_behind ((output_append_inSequence (hmessage _)).trans hwarned)
          hloaded hannounced with hstopped | hconcluded
        · exact Or.inl hstopped
        · exact Or.inr ⟨d, hconcluded⟩
      · rw [afterMessages_of_not_shown hparsed]
        refine Or.inl (stopped_of_crashed (fun d' h => hparsed fun m hm => ?_)
          ((output_append_inSequence (hmessage _)).trans hwarned) fun _ => rfl)
        have heq : d' = d := by
          have hboth := h.loaded
          rw [hloaded] at hboth
          exact (Except.ok.inj hboth).symm
        rw [← heq] at hm
        exact h.shown m (List.mem_append_left _ (List.mem_cons_of_mem _ hm))
  · rw [afterMessages_of_not_shown hloading]
    refine Or.inl (stopped_of_crashed (fun d h => hloading fun m hm => ?_)
      (output_append_inSequence (hmessage _)) fun _ => rfl)
    rw [List.mem_singleton] at hm
    exact h.shown m (List.mem_append_left _ (hm ▸ List.mem_cons_self))

end Attempt

end TypedClient.Command

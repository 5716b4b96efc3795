import TypedClient.Command.Run
import TypedClient.Proofs.Console
import TypedClient.Proofs.Store.Files

/-!
# How runs end

Whatever ends a run, nothing more is written to standard output, and no file is touched but the log
of a crash.  Messages on the way go to standard error; the first one that cannot be shown is a
crash.

* `Spares`: the run leaves a store as it is, but for the log of a crash.
* `output_ended`: no ending writes to standard output.
* `afterMessages_of_shown`, `afterMessages_of_not_shown`: how messages let a run go on.
-/

namespace TypedClient.Command

open Store (SameFiles)

variable {w : World} {console : Console} {before : Streams} {s : Store}

/-! ## The log of a crash -/

/-- The log of a crash changes no other file. -/
theorem fileIn_withCrashLog {c : Crash} {l : Location} (hl : l ≠ s.destination w.crashLog) :
    (w.withCrashLog s c).fileIn l = s.fileIn l := by
  rw [World.withCrashLog]
  cases hmade : s.makeDirectories w.crashLog.parent with
  | error fault => exact (Store.sameFiles_makeDirectoriesUpTo s _).fileIn l
  | ok ready =>
    have hready : SameFiles s ready := Store.sameFiles_of_makeDirectories hmade
    dsimp only
    split
    · rename_i logged hwritten
      rw [← hready.destination] at hl
      rw [Store.fileIn_of_write hwritten hl, hready.fileIn]
    · exact hready.fileIn l

/-- The run leaves a store as it is, unless it ends with a crash, which is logged. -/
def Spares (w : World) (s : Store) (o : Outcome) : Prop :=
  o.store = s ∨ o.exitCode = 1 ∧ ∃ c, o.store = w.withCrashLog s c

theorem Spares.fileIn {o : Outcome} (h : Spares w s o) {l : Location}
    (hl : l ≠ s.destination w.crashLog) : o.store.fileIn l = s.fileIn l := by
  rcases h with heq | ⟨-, c, heq⟩
  · rw [heq]
  · rw [heq, fileIn_withCrashLog hl]

/-! ## Endings -/

theorem spares_crashed (c : Crash) : Spares w s (crashed w console before s c) :=
  Or.inr ⟨rfl, c, rfl⟩

theorem output_crashed (c : Crash) :
    (crashed w console before s c).streams.output = before.output := by
  have hshown : ∀ m : Option Streams, Console.IsMessage m → ∀ line,
      (m.getD (.toError line)).output = "" := by
    intro m hm line
    cases m with
    | none => rfl
    | some shown => exact hm shown rfl
  show before.output ++ _ = before.output
  rw [hshown _ (Console.isMessage_error? _), String.append_empty]

/-- A problem is reported and gives its exit code, unless the report cannot be shown. -/
theorem ended_problem_cases (p : Problem) :
    (ended w console before s (.problem p)).exitCode = p.exitCode ∧
        (ended w console before s (.problem p)).store = s ∨
      ended w console before s (.problem p) = crashed w console before s .markup := by
  rw [ended]
  cases hshown : console.error? p.text with
  | none => exact Or.inr rfl
  | some shown => exact Or.inl ⟨rfl, rfl⟩

/-- An ending writes nothing to standard output. -/
theorem output_ended (ending : Ending) :
    (ended w console before s ending).streams.output = before.output := by
  cases ending with
  | success => rfl
  | crash c => exact output_crashed c
  | problem p =>
    rw [ended]
    cases hshown : console.error? p.text with
    | none => exact output_crashed _
    | some shown =>
      show before.output ++ shown.output = before.output
      rw [Console.isMessage_error? p.text shown hshown, String.append_empty]

/-! ## Messages on the way -/

theorem inSequence_snd_iff {messages : List (Option Streams)} :
    (inSequence messages).2 = true ↔ ∀ m ∈ messages, m.isSome := by
  induction messages with
  | nil => simp [inSequence]
  | cons m rest ih =>
    cases m with
    | none => simp [inSequence]
    | some shown =>
      rw [inSequence, List.forall_mem_cons, ← ih]
      simp

theorem output_inSequence {messages : List (Option Streams)}
    (h : ∀ m ∈ messages, Console.IsMessage m) : (inSequence messages).1.output = "" := by
  induction messages with
  | nil => rfl
  | cons m rest ih =>
    cases m with
    | none => rfl
    | some shown =>
      have hrest : (inSequence rest).1.output = "" :=
        ih fun m hm => h m (List.mem_cons_of_mem _ hm)
      have hfirst : shown.output = "" := h _ List.mem_cons_self shown rfl
      show shown.output ++ (inSequence rest).1.output = ""
      rw [hfirst, hrest, String.append_empty]

theorem afterMessages_of_shown {messages : List (Option Streams)} {next : Streams → Outcome}
    (h : ∀ m ∈ messages, m.isSome) :
    afterMessages w console before s messages next =
      next (before.append (inSequence messages).1) := by
  rw [afterMessages]
  dsimp only
  rw [if_pos (inSequence_snd_iff.mpr h)]

theorem afterMessages_of_not_shown {messages : List (Option Streams)} {next : Streams → Outcome}
    (h : ¬ ∀ m ∈ messages, m.isSome) :
    afterMessages w console before s messages next =
      crashed w console (before.append (inSequence messages).1) s .markup := by
  rw [afterMessages]
  dsimp only
  rw [if_neg fun hshown => h (inSequence_snd_iff.mp hshown)]

theorem output_append_inSequence {messages : List (Option Streams)}
    (h : ∀ m ∈ messages, Console.IsMessage m) :
    (before.append (inSequence messages).1).output = before.output := by
  show before.output ++ (inSequence messages).1.output = before.output
  rw [output_inSequence h, String.append_empty]

end TypedClient.Command

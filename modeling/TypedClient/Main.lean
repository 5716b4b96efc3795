import TypedClient.Command.Footprint

/-!
# The command line

Reads the files that the command may look at, runs the command on them, and puts what it changed
back.  All decisions are made by the run; if the system refuses a change, the run is repeated with
that refusal.
-/

namespace TypedClient

/-- What is at a path of the system. -/
def entryOnDisk? (p : Path) : IO (Option Entry) := do
  match ← (IO.FS.readBinFile p.text).toBaseIO with
  | .ok data => return some (.file data)
  | .error (.inappropriateType ..) => return some .directory
  | .error _ => return none

/-- The store with what is at a path, as far as it is not known yet. -/
def withPath (s : Store) (p : Path) : IO Store := do
  match s.locate p with
  | .error _ => return s
  | .ok l =>
    if (s.get? l).isSome then return s
    match ← entryOnDisk? p with
    | some e => return s.put l e
    | none => return s

/-- The store with what is at paths and on the way to them. -/
def withPaths (s : Store) (ps : List Path) : IO Store :=
  (ps.flatMap Path.stages).foldlM withPath s

/-- The variables of the environment that matter. -/
def variableNames : List String :=
  ["NO_COLOR", "TERM", "XDG_DATA_HOME", Settings.removesTagVariable, Settings.modifiersVariable,
    Settings.typeNamespaceVariable]

/-- The environment. -/
def readEnvironment : IO Settings.Environment := do
  let found ← variableNames.mapM fun v => do return (← IO.getEnv v).map (v, ·)
  return found.filterMap id

/-- The world in which a command runs, given what is on standard input. -/
def worldFor (invocation : Command.Invocation) (input : String) : IO Command.World := do
  let here := (Path.ofText (← IO.currentDir).toString).parts
  let world : Command.World :=
    { store := .empty here
      input := input
      environment := ← readEnvironment
      respond := fun _ => .unreachable "there is no network connection"
      isTerminal := ← (← IO.getStdout).isTty
      system := "Linux"
      home := Path.ofText ((← IO.getEnv "HOME").getD "/")
      time := toString (← IO.monoMsNow) }
  let world := { world with store := ← withPaths world.store (Command.readPaths invocation) }
  return { world with store := ← withPaths world.store (Command.writePaths world invocation) }

/-- Puts an entry at a location of the system; a file takes the place of the old one as a whole. -/
def putOnDisk (l : Location) (e : Entry) : IO Unit := do
  let place : Path := ⟨"/", l⟩
  match e with
  | .directory => IO.FS.createDirAll place.text
  | .file data =>
    let temporary := place.parent.join ⟨"", [Store.temporaryName place.name (← IO.monoMsNow)]⟩
    IO.FS.writeBinFile temporary.text data
    IO.FS.rename temporary.text place.text

/-- Puts what a run changed on the system. -/
def putChanges (before after : Store) : IO Unit :=
  (before.changesFrom after).forM fun (l, e) => putOnDisk l e

end TypedClient

open TypedClient in
/-- Runs the command that the arguments ask for. -/
def main (arguments : List String) : IO UInt32 := do
  let invocation := Command.Invocation.ofArguments arguments
  let input ← if Command.readsInput invocation then (← IO.getStdin).readToEnd else pure ""
  let world ← worldFor invocation input
  let hoped := Command.run world arguments
  let outcome ←
    match ← (putChanges world.store hoped.store).toBaseIO with
    | .ok _ => pure hoped
    | .error _ => do
      let world ← worldFor invocation input
      pure (Command.runWith (fun _ _ => true) world arguments)
  IO.print outcome.streams.output
  IO.eprint outcome.streams.error
  return outcome.exitCode.toNat.toUInt32

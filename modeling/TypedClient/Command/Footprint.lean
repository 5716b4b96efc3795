import TypedClient.Command.Run

/-!
# What a command looks at

A run is given the files that it may look at, and only those.  Which ones they are follows from the
command line and, for the files that are generated, from the settings.

* `Command.readPaths`: the paths of the files that a command reads.
* `Command.writePaths`: the paths of the files that it may replace.
* `Command.readsInput`: whether it reads standard input.
-/

namespace TypedClient.Command

/-- The source that a command reads. -/
def Task.source : Task → String
  | .generate options => options.source
  | .listOperations source => source
  | .listSchemas source => source

/-- Does a command read standard input? -/
def readsInput : Invocation → Bool
  | .run _ task => Loading.Source.ofText task.source == .input
  | _ => false

/-- The path of the file that is the source of a command. -/
def sourcePaths (task : Task) : List Path :=
  match Loading.Source.ofText task.source with
  | .file path => [Path.ofText path]
  | _ => []

/-- The path of the project file that a command reads. -/
def projectPaths : Task → List Path
  | .generate options => [Path.ofText (options.configPath.getD Settings.projectFileName)]
  | _ => []

/-- The paths of the files that a command reads. -/
def readPaths : Invocation → List Path
  | .run _ task => sourcePaths task ++ projectPaths task
  | _ => []

/-- The paths of the files that a generation may replace. -/
def generatedPaths (w : World) : Task → List Path
  | .generate options =>
    match Settings.resolve w.store options.configPath w.environment options.flags with
    | .ok settings =>
      [settings.definitionsFile, settings.clientFile].map
        (Store.targetPath (Path.ofText options.directory))
    | .error _ => []
  | _ => []

/-- The paths of the files that a command may replace; the log of a crash is among them. -/
def writePaths (w : World) : Invocation → List Path
  | .run _ task => generatedPaths w task ++ [w.crashLog]
  | _ => []

end TypedClient.Command

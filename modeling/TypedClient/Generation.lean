import TypedClient.TypeLibrary
import TypedClient.Client

/-!
# Generation

The two files for a document: the type library, which can always be made, and the client, which
cannot if two operations want one name.

* `Generation`: what a run makes; `Generation.run` makes it.
* `Generation.artifacts`, `Generation.failures`: the files that were made and those that were not.
-/

namespace TypedClient

/-- A file that could not be made. -/
structure ArtifactFailure where
  name : String
  message : String
  location : String
deriving Repr, DecidableEq, Inhabited

/-- What a run makes of a document. -/
structure Generation where
  library : Artifact
  client : Except Client.NameClash Artifact
  diagnostics : List Diagnostic
  modifiers : Bool

namespace Generation

/-- The name of the type library among the artifacts. -/
def libraryName : String := "definitions"

/-- The name of the client among the artifacts. -/
def clientName : String := "api"

/-- The files that were made, in order. -/
def artifacts (g : Generation) : List Artifact :=
  g.library :: match g.client with
    | .ok artifact => [artifact]
    | .error _ => []

/-- The files that could not be made. -/
def failures (g : Generation) : List ArtifactFailure :=
  match g.client with
  | .ok _ => []
  | .error clash => [⟨clientName, clash.message, clash.second⟩]

/-- Were all files made? -/
def isComplete (g : Generation) : Bool :=
  g.failures.isEmpty

/-- The file with a name, if it was made. -/
def artifact? (g : Generation) (name : String) : Option Artifact :=
  g.artifacts.find? fun artifact => artifact.name == name

/-- Do two diagnostics say the same?  How serious they are does not matter. -/
def sameDiagnostic (a b : Diagnostic) : Bool :=
  a.code == b.code && a.message == b.message && a.location == b.location

/-- The diagnostics, each said once, in the order in which they were first said. -/
def distinct : List Diagnostic → List Diagnostic
  | [] => []
  | d :: rest => d :: (distinct rest).filter fun other => !sameDiagnostic d other

/-- The diagnostic on a clash of names. -/
def clashDiagnostic (clash : Client.NameClash) : Diagnostic :=
  ⟨.error, "duplicate-method-name", clash.message, clash.second⟩

/-- Are types seen through views? -/
def usesViews (doc : Document) (settings : Settings) : Bool :=
  settings.modifiers.getD doc.usesModifiers

/-- What a run makes of a document. -/
def run (doc : Document) (settings : Settings) : Generation :=
  let lib : Library := ⟨doc.schemas⟩
  let modifiers := usesViews doc settings
  let (declared, libraryNotes) := TypeLibrary.declarations lib modifiers
  let (operations, analysisNotes) := Analysis.ofDocument lib doc
  let client := Client.declarations lib settings modifiers operations
  { library := ⟨libraryName, settings.definitionsFile, declared⟩
    client := match client with
      | .ok (declared, _) => .ok ⟨clientName, settings.clientFile, declared⟩
      | .error clash => .error clash
    diagnostics := distinct (doc.notes ++ libraryNotes ++ analysisNotes ++
      match client with
      | .ok (_, notes) => notes
      | .error clash => [clashDiagnostic clash])
    modifiers := modifiers }

end Generation

end TypedClient

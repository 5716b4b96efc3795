import TypedClient.Source.ClientText
import TypedClient.Generation

/-!
# The texts of the generated files

* `Source.artifactText`: the text of a file.
* `Source.filesOf`: the texts of several files under their file names.
-/

namespace TypedClient.Source

/-- The text of a file: the client is known by its name, any other file is a type library. -/
def artifactText (artifact : Artifact) (className : String) : String :=
  if artifact.name = Generation.clientName then clientText artifact.declarations className
  else definitionsText artifact.declarations

/-- The texts of files under their file names; of two files with one name the later one stays. -/
def filesOf (artifacts : List Artifact) (className : String) : Named String :=
  Named.ofList (artifacts.map fun artifact => (artifact.filename, artifactText artifact className))

end TypedClient.Source

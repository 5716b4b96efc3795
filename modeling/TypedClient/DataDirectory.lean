import TypedClient.Path

/-!
# The directory for the program's own data

On systems that follow the base directory convention the data lies where the environment says, or
else in the usual place below the home directory; on all others it lies in a hidden directory there.

* `DataDirectory.path`: the directory on a system.
-/

namespace TypedClient.DataDirectory

/-- The name of the program in the names of its directories. -/
def programName : String := "spectype"

/-- Does the system follow the base directory convention? -/
def followsConvention (system : String) : Bool :=
  system == "Linux" || "BSD".toList.isSuffixOf system.toList

/-- The directory on a system, given the data directory that the environment names and the home
directory.  An empty name is none. -/
def path (system : String) (named : Option String) (home : Path) : Path :=
  if followsConvention system then
    let base := match named.filter fun s => !s.isEmpty with
      | some given => Path.ofText given
      | none => home.join ⟨"", [".local", "share"]⟩
    base.join ⟨"", [programName]⟩
  else home.join ⟨"", ["." ++ programName]⟩

/-- The directory for the logs of crashes. -/
def logs (directory : Path) : Path :=
  directory.join ⟨"", ["logs"]⟩

end TypedClient.DataDirectory

/-!
# Problems reported to the user

Every problem that ends a run is of a kind, which fixes the exit code, and has a message and
perhaps a place of the document.

* `Problem.Kind`: the kinds, with `Problem.Kind.exitCode`.
* `Problem.text`: the line that is shown.
* `Diagnostic`: a located note about something that does not end the run.
-/

namespace TypedClient

/-- The kinds of problems. -/
inductive Problem.Kind where
  | general
  | usage
  | config
  | parse
  | resolution
  | unresolved
  | circular
  | duplicateName
  | malformedOperation
  | generation
deriving Repr, DecidableEq, Inhabited

/-- The exit code of a kind of problem. -/
def Problem.Kind.exitCode : Problem.Kind → Int
  | .general => 1
  | .usage => 2
  | .config => 1
  | .parse => 7
  | .resolution => 8
  | .unresolved => 8
  | .circular => 8
  | .duplicateName => 8
  | .malformedOperation => 8
  | .generation => 8

/-- A problem with its place in the document, if it has one. -/
structure Problem where
  kind : Problem.Kind
  message : String
  location : Option String := none
  exitCode : Int := kind.exitCode
deriving Repr, DecidableEq, Inhabited

namespace Problem

/-- The message, with the place behind it if there is one. -/
def text (p : Problem) : String :=
  match p.location with
  | some place => if place.isEmpty then p.message else p.message ++ " (at " ++ place ++ ")"
  | none => p.message

end Problem

/-- How serious a diagnostic is. -/
inductive Severity where
  | warning
  | error
deriving Repr, DecidableEq, Inhabited

/-- The word for a severity. -/
def Severity.name : Severity → String
  | .warning => "warning"
  | .error => "error"

/-- A located note; the code is a stable word for its cause. -/
structure Diagnostic where
  severity : Severity
  code : String
  message : String
  location : String
deriving Repr, DecidableEq, Inhabited

end TypedClient

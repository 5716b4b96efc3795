import TypedClient.Problem
import TypedClient.Value.Display

/-!
# The version of a document

Documents say which version of the description format they are written in.  All versions with the
major number 3 are read; those that are neither 3.0 nor 3.1 are read with a warning.

* `Loading.checkVersion`: the version of a document, or why it is not read.
-/

namespace TypedClient.Loading

/-- Why a document is not read for its version. -/
inductive VersionError where
  | swagger (shown : String)
  | missing
  | unsupported (version : String)
deriving Repr, DecidableEq, Inhabited

/-- The wording of the error. -/
def VersionError.message : VersionError → String
  | .swagger shown =>
    "Swagger " ++ shown ++ " is not supported. " ++
      "Only OpenAPI 3.0.x and 3.1.x documents can be generated from. " ++
      "Consider converting with https://converter.swagger.io"
  | .missing => "Missing 'openapi' field. Is this an OpenAPI 3.x document?"
  | .unsupported version =>
    "Unsupported OpenAPI version: " ++ version ++ ". Only OpenAPI 3.0.x and 3.1.x are supported."

/-- Does a version start with the text? -/
def startsWith (start version : String) : Bool :=
  start.toList.isPrefixOf version.toList

/-- Is the version among those that are read without a warning? -/
def isKnown (version : String) : Bool :=
  startsWith "3.0." version || startsWith "3.1." version

/-- The warning on a version that is not among the known ones. -/
def newerWarning (version : String) : String :=
  "OpenAPI " ++ version ++ " is newer than 3.1; generating anyway"

/-- The version of a document with the warnings on it. -/
def checkVersion (document : Value) : Except VersionError (String × List String) :=
  match document.get? "swagger" with
  | some v => .error (.swagger v.display)
  | none =>
    match document.getD "openapi" with
    | .null => .error .missing
    | v =>
      let version := v.display
      if startsWith "3." version then
        .ok (version, if isKnown version then [] else [newerWarning version])
      else .error (.unsupported version)

end TypedClient.Loading

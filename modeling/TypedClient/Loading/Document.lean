import TypedClient.Document.Reading
import TypedClient.Loading.Source
import TypedClient.Loading.Version

/-!
# Loading documents

A text becomes a document in three steps: it is decoded, its version is checked and its parts are
read.

* `Loading.LoadError`: what the user is told about a source that gives no document.
* `Loading.load`: the document of a source, and the warnings on its version.
-/

namespace TypedClient.Loading

/-- What is wrong with a source or with what it holds. -/
inductive LoadError where
  | source (e : SourceError)
  | decode (e : DecodeError)
  | version (e : VersionError)
deriving Repr, BEq

/-- The wording of what is wrong. -/
def LoadError.message : LoadError → String
  | .source e => e.message
  | .decode e => e.message
  | .version e => e.message

/-- The problem that is reported. -/
def LoadError.problem (e : LoadError) : Problem :=
  { kind := .parse, message := e.message }

/-- Why a source gives no document: something is wrong with it, or it holds a value that is not
read. -/
inductive Failure where
  | wrong (e : LoadError)
  | longNumeral
  | scalar (fault : Yaml.Fault)
  | misfit (m : Misfit)
deriving Repr, BEq

/-- The failure for a text that is not decoded. -/
def Failure.ofDecode : DecodeFailure → Failure
  | .wrong e => .wrong (.decode e)
  | .longNumeral => .longNumeral
  | .scalar fault => .scalar fault

/-- The map that the text of a source writes. -/
def decodeContent (found : Except SourceError Content) : Except Failure Value :=
  match found with
  | .error e => .error (.wrong (.source e))
  | .ok content => (decode content.format content.text).mapError Failure.ofDecode

/-- The document that a decoded map describes, and the warnings on its version. -/
def documentOf (raw : Value) : List String × Except Failure Document :=
  match checkVersion raw with
  | .error e => ([], .error (.wrong (.version e)))
  | .ok (version, warnings) =>
    (warnings, (Document.ofValue raw version).mapError Failure.misfit)

/-- The document of a source, and the warnings on its version. -/
def load (found : Except SourceError Content) : List String × Except Failure Document :=
  match decodeContent found with
  | .error e => ([], .error e)
  | .ok raw => documentOf raw

end TypedClient.Loading

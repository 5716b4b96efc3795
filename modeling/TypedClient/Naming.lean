import TypedClient.Identifier
import TypedClient.Text.CaseFold

/-!
# Names of methods and tags

Operation identifiers and tags are arbitrary texts.  They are projected to camel case, where a run
of separators disappears and the character behind it is capitalised, and then made safe.

* `Naming.camelCase`, `Naming.pascalCase`: the projections.
* `Naming.methodName`, `Naming.tagName`: the names declared in the client.
* `Naming.withoutTag`: a method name with the text of a tag removed.

Separators are all characters but ASCII letters, digits and the underscore.
-/

namespace TypedClient.Naming

/-- What becomes of a run of separators at the end of a text, given last character first.  Its last
character that is no line feed stands for everything before it, unless it is the first of the run,
which is then left as it is. -/
def closeRun (run : List Char) : List Char :=
  let feeds := run.takeWhile (· == '\n')
  match run.drop feeds.length with
  | last :: _ :: _ => Text.upperChar last ++ feeds
  | _ => run.reverse

/-- The text with every run of separators dropped and the character behind it capitalised; `run`
is the open run, last character first. -/
def joinWords (run : List Char) : List Char → List Char
  | [] => closeRun run
  | c :: rest =>
    if Identifier.isWord c then
      (if run.isEmpty then [c] else Text.upperChar c) ++ joinWords [] rest
    else
      joinWords (c :: run) rest

/-- The text with its first character in lower case. -/
def lowerFirst : List Char → List Char
  | [] => []
  | c :: rest => Text.lowerChar c ++ rest

/-- The text with its first character in upper case. -/
def upperFirst : List Char → List Char
  | [] => []
  | c :: rest => Text.upperChar c ++ rest

/-- Words joined, the first letter small. -/
def camelCase (s : String) : String :=
  String.ofList (lowerFirst (joinWords [] s.toList))

/-- Words joined, the first letter capital. -/
def pascalCase (s : String) : String :=
  String.ofList (upperFirst (camelCase s).toList)

/-- The name of the method for an operation identifier. -/
def methodName (operationId : String) : String :=
  Identifier.sanitize (camelCase operationId)

/-- The name of the accessor for a tag. -/
def tagName (tag : String) : String :=
  Identifier.sanitize (pascalCase tag)

/-- The name without the occurrences of the tag, compared without case, and without one underscore
behind each. -/
def withoutTag (tag name : String) : String :=
  String.ofList (Text.eraseFolded tag.toList name.toList)

end TypedClient.Naming

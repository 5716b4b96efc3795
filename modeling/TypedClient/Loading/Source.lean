import TypedClient.Loading.Decoding
import TypedClient.Store
import TypedClient.Text.Case
import TypedClient.Text.Charset

/-!
# Where documents come from

A document is read from standard input, fetched from an address or read from a file.  Each source
gives a text together with what it says about the format: a file by the ending of its name, an
answer by its content type or else by the ending of the address.  The content type also says in
which charset an answer is written.

* `Loading.Source`: the sources.
* `Loading.ofInput`, `Loading.ofStore`, `Loading.ofResponse`: the text from each of them.
* `Loading.SourceError.message`: the wording of what is wrong with a source.
-/

namespace TypedClient.Loading

/-- Where a document comes from. -/
inductive Source where
  | input
  | address (url : String)
  | file (path : String)
deriving Repr, DecidableEq

/-- The source that a text names: a hyphen is standard input, and addresses start with `http://` or
`https://`. -/
def Source.ofText (s : String) : Source :=
  if s = "-" then .input
  else if "http://".toList.isPrefixOf s.toList || "https://".toList.isPrefixOf s.toList then
    .address s
  else .file s

/-- What is wrong with a source. -/
inductive SourceError where
  | noInput
  | notFound (path : String)
  | blank (path : String)
  | undecodable (path : String)
  | status (code : Nat) (url : String)
  | unreachable (url reason : String)
deriving Repr, DecidableEq

/-- The wording of what is wrong. -/
def SourceError.message : SourceError → String
  | .noInput => "No input received from stdin"
  | .notFound path => "Document not found: " ++ path
  | .blank path => "Document is empty: " ++ path
  | .undecodable path => "Failed to read document " ++ path ++ ": not a UTF-8 text"
  | .status code url => "HTTP " ++ toString code ++ " fetching document from " ++ url
  | .unreachable url reason => "Failed to fetch document from " ++ url ++ ": " ++ reason

/-- A text and what its source says about the format. -/
structure Content where
  text : String
  format : Option Format
deriving Repr, DecidableEq

/-- The text from standard input. -/
def ofInput (text : String) : Except SourceError Content :=
  if Text.isAllBlank text.toList then .error .noInput else .ok ⟨text, none⟩

/-! ## Files -/

/-- The text in small letters. -/
def lowered (s : String) : String := String.ofList (Text.lower s.toList)

/-- What the ending of the name of a file says about the format. -/
def formatOfEnding (ending : String) : Option Format :=
  if ending = ".json" then some .json
  else if ending = ".yaml" || ending = ".yml" then some .yaml
  else none

/-- The text of the file at a path, given its bytes if there is such a file. -/
def ofFile (path : String) (data : Option ByteArray) : Except SourceError Content :=
  match data with
  | none => .error (.notFound path)
  | some data =>
    match Text.readLines? data with
    | none => .error (.undecodable path)
    | some text =>
      if Text.isAllBlank text.toList then .error (.blank path)
      else .ok ⟨text, formatOfEnding (lowered (Path.ofText path).ending)⟩

/-- The text of the file at a path of a store. -/
def ofStore (s : Store) (path : String) : Except SourceError Content :=
  ofFile path (s.fileAt? (Path.ofText path))

/-! ## Addresses -/

/-- What came back from an address: an answer, with its body read as UTF-8, or no connection for a
reason. -/
inductive Response where
  | answer (status : Nat) (contentType : String) (body : String)
  | unreachable (reason : String)
deriving Repr, DecidableEq

/-- What a content type and an address say about the format. -/
def formatOfAnswer (contentType url : String) : Option Format :=
  let type := Text.lower contentType.toList
  let address := Text.lower url.toList
  if Text.holds "json".toList type then some .json
  else if Text.holds "yaml".toList type || Text.holds "yml".toList type then some .yaml
  else if ".yaml".toList.isSuffixOf address || ".yml".toList.isSuffixOf address then some .yaml
  else none

/-- The value of a parameter of a content type, without quotes around it, if the parameter has the
name. -/
def parameterOf? (name : String) (parameter : List Char) : Option String :=
  let written := parameter.takeWhile (· ≠ '=')
  let value := Text.trim (parameter.drop (written.length + 1))
  if String.ofList (Text.lower (Text.trim written)) = name then
    some (String.ofList (Text.lower (value.filter (· ≠ '"'))))
  else none

/-- The charset that a content type names; without a name that is known it is UTF-8. -/
def charsetOf (contentType : String) : Text.Charset :=
  (((Text.segments ';' contentType.toList).findSome? (parameterOf? "charset")).bind
    Text.Charset.ofName?).getD .utf8

/-- The text that came back from an address. -/
def ofResponse (url : String) : Response → Except SourceError Content
  | .unreachable reason => .error (.unreachable url reason)
  | .answer status contentType body =>
    if 200 ≤ status ∧ status < 300 then
      .ok ⟨(charsetOf contentType).reread body, formatOfAnswer contentType url⟩
    else .error (.status status url)

end TypedClient.Loading

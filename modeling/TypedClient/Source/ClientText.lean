import TypedClient.PathTemplate
import TypedClient.Source.Definitions
import TypedClient.Text.Blank
import TypedClient.Text.Lines

/-!
# The text of the client

* `Source.clientText`: the text of a list of declarations: imports, the class with one method for
  each callable and one accessor for each tag, and the helper if it is declared.
* `Source.urlText`: the expression that puts the parameters into a path.
* `Source.docLines`: the lines of a method's comment.
-/

namespace TypedClient.Source

/-! ## Imports -/

/-- Names between braces. -/
def braced (names : List String) : String :=
  "\x7b " ++ Text.joinWith ", " names ++ " \x7d"

/-- The line of an import. -/
def importLine? : Declaration → Option String
  | .importTypes file names space =>
    let target := match space with
      | some space => if space.isEmpty then braced names else "* as " ++ space
      | none => braced names
    some ("import type " ++ target ++ " from " ++ quote file ++ ";")
  | _ => none

/-- The line of an export. -/
def exportLine? : Declaration → Option String
  | .exportTypes names file =>
    let place := match file with
      | some file => if file.isEmpty then "" else " from " ++ quote file
      | none => ""
    some ("export type " ++ braced names ++ place ++ ";")
  | _ => none

/-! ## Methods -/

/-- Does the character have a meaning of its own in a pattern? -/
def isPatternSpecial (c : Char) : Bool :=
  ['\\', '^', '$', '.', '*', '+', '?', '(', ')', '[', ']', '\x7b', '\x7d', '|', '/'].contains c

/-- The pattern that matches every placeholder with a name. -/
def placeholderPattern (name : String) : String :=
  let escaped := (PathTemplate.opening :: name.toList ++ [PathTemplate.closing]).flatMap fun c =>
    if isPatternSpecial c then ['\\', c] else [c]
  "/" ++ String.ofList escaped ++ "/g"

/-- The expression for the path of a call, each path parameter replaced in turn. -/
def urlText (path : String) (names : List String) : String :=
  names.foldl (fun url name =>
    url ++ ".replace(" ++ placeholderPattern name ++ ", String(params[" ++ quote name ++ "]))")
    (quote path)

/-- The expression that picks parameters. -/
def pickText (names : List String) : String :=
  "pick(params, " ++ Text.joinWith ", " (names.map quote) ++ ")"

/-- The expression for the options of a call: those of the caller, over the headers and the query
parameters if there are any. -/
def optionsText (c : Callable) : String :=
  let projections :=
    (if c.headerParameters.isEmpty then [] else ["headers: " ++ pickText c.headerParameters]) ++
    (if c.queryParameters.isEmpty then [] else ["params: " ++ pickText c.queryParameters])
  if projections.isEmpty then "options"
  else "Object.assign(\x7b\x7d, " ++ braced projections ++ ", options)"

/-- The parameters of a method. -/
def signatureText (c : Callable) : String :=
  Text.joinWith ", "
    ((c.parametersType.map fun type => "params: " ++ typeText 1 type).toList ++
      (c.dataType.map fun type => "data: " ++ typeText 1 type).toList ++
      ["options?: AxiosRequestConfig"])

/-- Has the method a function of its own in the client's transport? -/
def hasShorthand : Method → Bool
  | .trace => false
  | _ => true

/-- The function that a method calls. -/
def targetText (c : Callable) : String :=
  let function := if hasShorthand c.method then c.method.name else "request"
  "this.axios." ++ function ++ "<" ++ typeText 2 c.returnType ++ ">"

/-- What a method passes to the function that it calls. -/
def argumentTexts (c : Callable) : List String :=
  let url := urlText c.path c.pathParameters
  let options := optionsText c
  if hasShorthand c.method then
    [url] ++
      (if c.sendsData then [if c.dataType.isSome then "data" else "\x7b\x7d"] else []) ++
      [options]
  else
    ["\x7b ..." ++ options ++ ", method: " ++ quote c.method.label ++ ", url: " ++ url ++ " \x7d"]

/-- The lines of a method's comment: its summary, in which no comment can end, the operation, and
whether it is deprecated.  Empty lines are left out. -/
def docLines (c : Callable) : List String :=
  let summary := match c.summary with
    | none => []
    | some s =>
      (Text.lines (Text.replaceAll ['*', '/'] ['*', ' ', '/'] s.toList)).map fun line =>
        String.ofList (Text.trim line)
  (summary ++ [c.label] ++ (if c.isDeprecated then ["@deprecated"] else [])).filter fun line =>
    !line.isEmpty

/-- The lines of a method. -/
def callableLines (c : Callable) : List String :=
  ["", "  /**"] ++ (docLines c).map (fun line => "   * " ++ line) ++
    ["   */", "  private " ++ c.name ++ "(" ++ signatureText c ++ ") \x7b",
      "    return " ++ targetText c ++ "("] ++
    (argumentTexts c).map (fun argument => "      " ++ argument ++ ",") ++
    ["    );", "  \x7d"]

/-- The lines of an accessor. -/
def groupLines (name : String) (members : Named String) : List String :=
  ["", "  get " ++ name ++ "() \x7b", "    return \x7b"] ++
    members.map (fun member => "      " ++ member.1 ++ ": this." ++ member.2 ++ ".bind(this),") ++
    ["    \x7d;", "  \x7d"]

/-- The lines of a method, if the declaration is one. -/
def callableLines? : Declaration → Option (List String)
  | .callable c => some (callableLines c)
  | _ => none

/-- The lines of an accessor, if the declaration is one. -/
def groupLines? : Declaration → Option (List String)
  | .tagGroup name members => some (groupLines name members)
  | _ => none

/-! ## The file -/

/-- The lines of the class before its first method. -/
def classHead (name : String) : List String :=
  ["", "export default class " ++ name ++ " \x7b",
    "  public axios: AxiosInstance;",
    "",
    "  constructor(configOrInstance: AxiosRequestConfig | AxiosInstance) \x7b",
    "    this.axios = 'interceptors' in configOrInstance",
    "      ? configOrInstance",
    "      : axios.create(configOrInstance);",
    "  \x7d"]

/-- The function that picks some of the parameters. -/
def pickLines : List String :=
  ["",
    "function pick<T extends object, K extends keyof T>(obj: T, ...keys: K[]): Pick<T, K> \x7b",
    "  const ret = \x7b\x7d as Pick<T, K>;",
    "  keys.forEach((key) => \x7b",
    "    if (key in obj) ret[key] = obj[key];",
    "  \x7d);",
    "  return ret;",
    "\x7d"]

/-- Is the declaration that of the helper? -/
def isPickHelper : Declaration → Bool
  | .pickHelper => true
  | _ => false

/-- The text of the client. -/
def clientText (declarations : List Declaration) (className : String) : String :=
  linesText (header ++
    ["import axios from 'axios';",
      "import type \x7b AxiosInstance, AxiosRequestConfig \x7d from 'axios';"] ++
    declarations.filterMap importLine? ++
    declarations.filterMap exportLine? ++
    classHead className ++
    (declarations.filterMap callableLines?).flatten ++
    (declarations.filterMap groupLines?).flatten ++
    ["\x7d"] ++
    (if declarations.any isPickHelper then pickLines else []))

end TypedClient.Source

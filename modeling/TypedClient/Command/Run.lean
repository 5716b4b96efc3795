import TypedClient.Command.Invocation
import TypedClient.Console
import TypedClient.DataDirectory
import TypedClient.Loading.Document
import TypedClient.Source.Files
import TypedClient.Store.Writing

/-!
# Running commands

A run starts from a world: the files, standard input, the environment and what addresses answer.  It
ends with an exit code, what it has written to its two streams, and the files as they are then.

* `Command.World`, `Command.Outcome`: what a run starts from and ends with.
* `Command.generate`, `Command.listOperations`, `Command.listSchemas`: the commands.
* `Command.run`: the outcome of a command line.
-/

namespace TypedClient.Command

/-- What a run starts from. -/
structure World where
  store : Store
  input : String
  environment : Settings.Environment
  respond : String → Loading.Response
  isTerminal : Bool
  /-- The name of the operating system. -/
  system : String
  home : Path
  /-- The time, as it stands in the names of logs. -/
  time : String

/-- What a run ends with. -/
structure Outcome where
  exitCode : Int
  streams : Streams
  store : Store

/-- What a run did not foresee. -/
inductive Crash where
  | misfit (m : Misfit)
  | longNumeral
  | scalar (fault : Yaml.Fault)
  | undecodable
  | markup
deriving Repr, DecidableEq

/-- The wording of a crash. -/
def Crash.text : Crash → String
  | .misfit .notKey => "a value that cannot be a key stands where a key is needed"
  | .misfit .notText => "a value that is no text stands where a text is needed"
  | .misfit .notIterable => "a value without elements stands where a list is needed"
  | .longNumeral => "a numeral has too many digits"
  | .scalar _ => "a scalar has no value"
  | .undecodable => "a file is not UTF-8"
  | .markup => "a message closes a tag that is not open"

/-- How a run ends. -/
inductive Ending where
  | success
  | problem (p : Problem)
  | crash (c : Crash)
deriving Repr, DecidableEq

/-! ## Endings -/

/-- The directory for the program's own data. -/
def World.dataDirectory (w : World) : Path :=
  DataDirectory.path w.system (w.environment.lookup "XDG_DATA_HOME") w.home

/-- The path of the log of a crash. -/
def World.crashLog (w : World) : Path :=
  (DataDirectory.logs w.dataDirectory).join ⟨"", ["crash-" ++ w.time ++ ".log"]⟩

/-- The store with the log of a crash, if it can be written. -/
def World.withCrashLog (w : World) (s : Store) (c : Crash) : Store :=
  match s.makeDirectories w.crashLog.parent with
  | .error _ => s.makeDirectoriesUpTo w.crashLog.parent
  | .ok ready =>
    match ready.write w.crashLog (Text.encode (c.text ++ "\n")) with
    | .ok logged => logged
    | .error _ => ready

/-- The outcome of a crash. -/
def crashed (w : World) (console : Console) (before : Streams) (s : Store) (c : Crash) : Outcome :=
  let line := "Unexpected error. Debug log: " ++ w.crashLog.text
  let shown := (console.error? line).getD (.toError ("Error: " ++ line ++ "\n"))
  ⟨1, before.append shown, w.withCrashLog s c⟩

/-- The outcome of an ending, given what has been written before. -/
def ended (w : World) (console : Console) (before : Streams) (s : Store) : Ending → Outcome
  | .success => ⟨0, before, s⟩
  | .problem p =>
    match console.error? p.text with
    | some shown => ⟨p.exitCode, before.append shown, s⟩
    | none => crashed w console before s .markup
  | .crash c => crashed w console before s c

/-- How a run ends for want of settings. -/
def endingOfSettings : Settings.LayerFailure → Ending
  | .wrong e => .problem e.problem
  | .undecodable => .crash .undecodable
  | .longNumeral => .crash .longNumeral

/-- How a run ends for want of a document. -/
def endingOfLoading : Loading.Failure → Ending
  | .wrong e => .problem e.problem
  | .longNumeral => .crash .longNumeral
  | .scalar fault => .crash (.scalar fault)
  | .misfit m => .crash (.misfit m)

/-- How a run ends because of a file. -/
def endingOfWriting (p : Path) : Store.WriteFault → Ending
  | .store fault => .problem (Store.writeProblem p fault)
  | .undecodable => .crash .undecodable

/-! ## Messages -/

/-- The messages one after the other, up to the first one that cannot be shown. -/
def inSequence : List (Option Streams) → Streams × Bool
  | [] => (.none, true)
  | none :: _ => (.none, false)
  | some s :: rest =>
    let (more, isComplete) := inSequence rest
    (s.append more, isComplete)

/-- Goes on behind messages, unless one of them cannot be shown. -/
def afterMessages (w : World) (console : Console) (before : Streams) (s : Store)
    (messages : List (Option Streams)) (next : Streams → Outcome) : Outcome :=
  let (shown, isComplete) := inSequence messages
  if isComplete then next (before.append shown)
  else crashed w console (before.append shown) s .markup

/-! ## Documents -/

/-- What a source holds. -/
def World.contentOf (w : World) (source : String) :
    Except Loading.SourceError Loading.Content :=
  match Loading.Source.ofText source with
  | .input => Loading.ofInput w.input
  | .address url => Loading.ofResponse url (w.respond url)
  | .file path => Loading.ofStore w.store path

/-- The message on a document that has been read. -/
def parsedLine (d : Document) : String :=
  "Parsed OpenAPI " ++ d.openapiVersion ++ ": " ++ toString d.schemas.length ++ " schema(s), " ++
    toString d.operations.length ++ " operation(s)"

/-- Goes on with the document of a source. -/
def withDocument (w : World) (console : Console) (source : String)
    (next : Streams → Document → Outcome) : Outcome :=
  afterMessages w console .none w.store [console.debug? ("Loading document from " ++ source)]
    fun before =>
      let (warnings, loaded) := Loading.load (w.contentOf source)
      let warned := before.append (.toError (String.join (warnings.map (· ++ "\n"))))
      match loaded with
      | .error failure => ended w console warned w.store (endingOfLoading failure)
      | .ok document =>
        afterMessages w console warned w.store [console.debug? (parsedLine document)]
          fun streams => next streams document

/-! ## Listings -/

/-- The row of an operation. -/
def operationRow (op : AnalyzedOperation) : List String :=
  let response := if op.status.isEmpty then "-" else op.status ++ " " ++ op.responseKind.name
  [op.method.name.map Char.toUpper, op.path, op.methodName, op.tag, response,
    if op.isDeprecated then "Yes" else ""]

/-- Lists the methods that a document gives. -/
def listOperations (w : World) (console : Console) (source : String) : Outcome :=
  withDocument w console source fun before document =>
    let (operations, notes) := Analysis.ofDocument ⟨document.schemas⟩ document
    afterMessages w console before w.store (notes.map console.diagnostic?) fun streams =>
      let headers := ["Method", "Path", "Name", "Tag", "Response", "Deprecated"]
      ⟨0, streams.append (console.table headers (operations.map operationRow)), w.store⟩

/-- The names of the properties of a schema, of which five are shown. -/
def propertyNames : Schema → String
  | .object properties _ _ =>
    let names := properties.map Prod.fst
    Text.joinWith ", " (names.take 5) ++ (if 5 < names.length then "..." else "")
  | _ => ""

/-- The row of a named schema. -/
def schemaRow (library : Library) (entry : String × Schema) : List String :=
  [entry.1, library.typeName entry.1, entry.2.shapeName, propertyNames entry.2]

/-- Lists the named schemas of a document. -/
def listSchemas (w : World) (console : Console) (source : String) : Outcome :=
  withDocument w console source fun before document =>
    if document.schemas.isEmpty then
      afterMessages w console before w.store [console.info? "No schemas defined in this document."]
        fun streams => ⟨0, streams, w.store⟩
    else
      let headers := ["Schema", "Type name", "Kind", "Properties"]
      let rows := document.schemas.map (schemaRow ⟨document.schemas⟩)
      ⟨0, before.append (console.table headers rows), w.store⟩

/-! ## Generation -/

/-- A diagnostic as data. -/
def diagnosticValue (d : Diagnostic) : Value :=
  .map [(.text "severity", .text d.severity.name), (.text "code", .text d.code),
    (.text "message", .text d.message), (.text "location", .text d.location)]

/-- A file that could not be made, as data. -/
def failureValue (f : ArtifactFailure) : Value :=
  .map [(.text "name", .text f.name), (.text "message", .text f.message),
    (.text "location", .text f.location)]

/-- What a generation did, as data. -/
def summary (g : Generation) (files : Named String) (written : List Path) (isDryRun : Bool) :
    Value :=
  .map [(.text "ok", .bool g.isComplete), (.text "dry_run", .bool isDryRun),
    (.text "files", .list (files.names.map .text)),
    (.text "written", .list (written.map fun p => .text p.text)),
    (.text "failures", .list (g.failures.map failureValue)),
    (.text "diagnostics", .list (g.diagnostics.map diagnosticValue))]

/-- How a generation ends, all its files having been delivered. -/
def endingOf (g : Generation) : Ending :=
  if g.isComplete then .success
  else
    .problem { kind := .generation
               message := "Failed to generate: " ++
                 Text.joinWith ", " (g.failures.map ArtifactFailure.name) }

/-- The end of a generation: the summary, if it is wanted, and the failures. -/
def conclude (w : World) (console : Console) (g : Generation) (files : Named String)
    (written : List Path) (isDryRun : Bool) (s : Store) (before : Streams) : Outcome :=
  let streams :=
    if console.format = .json then
      before.append (Console.json (summary g files written isDryRun))
    else before
  ended w console streams s (endingOf g)

/-- The message on a file. -/
def deliveryLine (directory : Path) (written : List Path) (name : String) : String :=
  let p := Store.targetPath directory name
  (if written.contains p then "wrote " else "unchanged ") ++ p.text

/-- Shows the files instead of writing them. -/
def preview (w : World) (console : Console) (g : Generation) (files : Named String)
    (before : Streams) : Outcome :=
  let streams :=
    if console.format = .json then before
    else files.foldl (fun streams file => streams.append (Console.source file.2)) before
  conclude w console g files [] true w.store streams

/-- Writes the files. -/
def deliver (w : World) (refuses : Store.Refusals) (console : Console) (directory : Path)
    (g : Generation) (files : Named String) (before : Streams) : Outcome :=
  let written := Store.writeAll refuses w.store directory files
  match written.fault with
  | some (p, fault) => ended w console before written.store (endingOfWriting p fault)
  | none =>
    let lines := files.names.map (deliveryLine directory written.changed)
    afterMessages w console before written.store (lines.map console.success?) fun streams =>
      conclude w console g files written.changed false written.store streams

/-- The messages on what was generated. -/
def reportOf (console : Console) (g : Generation) : List (Option Streams) :=
  g.diagnostics.map console.diagnostic? ++
    [console.debug? ("readOnly/writeOnly projections: " ++ (if g.modifiers then "on" else "off"))]

/-- Generates the files for a document. -/
def generate (w : World) (refuses : Store.Refusals) (console : Console) (isDryRun : Bool)
    (options : GenerateOptions) : Outcome :=
  match Settings.resolve w.store options.configPath w.environment options.flags with
  | .error failure => ended w console .none w.store (endingOfSettings failure)
  | .ok settings =>
    withDocument w console options.source fun before document =>
      let g := Generation.run document settings
      let files := Source.filesOf g.artifacts settings.clientName
      afterMessages w console before w.store (reportOf console g) fun streams =>
        if isDryRun then preview w console g files streams
        else deliver w refuses console (Path.ofText options.directory) g files streams

/-! ## Command lines -/

/-- The name and the version of the program. -/
def versionLine : String := "spectype 0.1.0"

/-- How the program is used, in short. -/
def usageLine : String :=
  "Usage: spectype [OPTIONS] (generate SOURCE | inspect operations SOURCE | inspect schemas SOURCE)"

/-- The choices for the output of a run. -/
def consoleFor (w : World) (g : Globals) : Console :=
  let format : Console.Format := if g.asJson then .json else if g.asPlain then .plain else .auto
  .make format g.noColor g.isQuiet g.isVerbose w.isTerminal w.environment

/-- The outcome of a command. -/
def runTask (w : World) (refuses : Store.Refusals) (g : Globals) : Task → Outcome
  | .generate options => generate w refuses (consoleFor w g) g.isDryRun options
  | .listOperations source => listOperations w (consoleFor w g) source
  | .listSchemas source => listSchemas w (consoleFor w g) source

/-- The outcome of a command line, for the steps of writing that are refused. -/
def runWith (refuses : Store.Refusals) (w : World) (arguments : List String) : Outcome :=
  match Invocation.ofArguments arguments with
  | .misuse => ⟨2, .toError (usageLine ++ "\n"), w.store⟩
  | .help => ⟨0, .toOutput (usageLine ++ "\n"), w.store⟩
  | .version => ⟨0, .toOutput (versionLine ++ "\n"), w.store⟩
  | .run globals task => runTask w refuses globals task

/-- The outcome of a command line. -/
def run (w : World) (arguments : List String) : Outcome :=
  runWith Store.noRefusals w arguments

end TypedClient.Command

import TypedClient.Json.Writer
import TypedClient.Markup
import TypedClient.Problem
import TypedClient.Settings.Layers

/-!
# Output

Data goes to standard output and everything else to standard error.  Data is written as plain text,
as JSON or, on a terminal, with colours; messages may be coloured whatever the format of the data
is.

* `Console.Format`: the formats.
* `Console`: the choices that hold for a run; `Console.make` makes them.
* `Console.info?`, `Console.warning?`, `Console.diagnostic?`, …: what is written for each kind of
  message.
* `Console.table`, `Console.source`, `Console.json`: what is written for data.
-/

namespace TypedClient

/-- The formats of data. -/
inductive Console.Format where
  | auto
  | json
  | plain
  | rich
deriving Repr, DecidableEq

/-- The name of a format. -/
def Console.Format.name : Console.Format → String
  | .auto => "auto"
  | .json => "json"
  | .plain => "plain"
  | .rich => "rich"

/-- The format with a name. -/
def Console.Format.ofName? (name : String) : Option Console.Format :=
  [Console.Format.auto, .json, .plain, .rich].find? fun f => f.name == name

/-- The choices that hold for the output of a run. -/
structure Console where
  format : Console.Format
  hasColor : Bool
  isQuiet : Bool
  isVerbose : Bool
deriving Repr, DecidableEq

/-- What has been written to standard output and to standard error. -/
structure Streams where
  output : String
  error : String
deriving Repr, DecidableEq

namespace Streams

/-- Nothing. -/
def none : Streams := ⟨"", ""⟩

/-- One after the other. -/
def append (a b : Streams) : Streams :=
  ⟨a.output ++ b.output, a.error ++ b.error⟩

/-- A text on standard output. -/
def toOutput (s : String) : Streams := ⟨s, ""⟩

/-- A text on standard error. -/
def toError (s : String) : Streams := ⟨"", s⟩

end Streams

namespace Console

/-- Does the environment ask for no colours? -/
def forbidsColor (environment : Settings.Environment) : Bool :=
  (environment.lookup "NO_COLOR").isSome || environment.lookup "TERM" == some "dumb"

/-- The choices for a run: colours are used unless they are refused, and a terminal with colours
gets data in colours if no other format is asked for. -/
def make (asked : Format) (noColor isQuiet isVerbose isTerminal : Bool)
    (environment : Settings.Environment) : Console :=
  let hasColor := !(noColor || forbidsColor environment)
  let format := if asked = .auto then (if isTerminal && hasColor then .rich else .plain) else asked
  ⟨format, hasColor, isQuiet, isVerbose⟩

/-! ## Messages -/

/-- What is written for a message that is given without colours and as markup; nothing if the markup
closes a tag that is not open. -/
def message? (c : Console) (plain markup : String) : Option Streams :=
  (if c.hasColor then Markup.shown? markup else some plain).map fun s => .toError (s ++ "\n")

/-- A piece of information. -/
def info? (c : Console) (message : String) : Option Streams :=
  if c.isQuiet then some .none else c.message? message message

/-- A success. -/
def success? (c : Console) (message : String) : Option Streams :=
  if c.isQuiet then some .none else c.message? message ("[green]" ++ message ++ "[/green]")

/-- A warning. -/
def warning? (c : Console) (message : String) : Option Streams :=
  c.message? ("Warning: " ++ message) ("[yellow]Warning:[/yellow] " ++ message)

/-- An error. -/
def error? (c : Console) (message : String) : Option Streams :=
  c.message? ("Error: " ++ message) ("[bold red]Error:[/bold red] " ++ message)

/-- A message for the search for errors, which is written only if the run says much. -/
def debug? (c : Console) (message : String) : Option Streams :=
  if c.isVerbose then
    c.message? ("[debug] " ++ message) ("[dim]\\[debug] " ++ message ++ "[/dim]")
  else some .none

/-- The line for a diagnostic. -/
def diagnosticLine (d : Diagnostic) : String :=
  let place := if d.location.isEmpty then "" else " [" ++ d.location ++ "]"
  d.message ++ place ++ " (" ++ d.code ++ ")"

/-- A diagnostic.  Errors are always written; warnings are not if the run is quiet, unless it also
says much. -/
def diagnostic? (c : Console) (d : Diagnostic) : Option Streams :=
  let line := diagnosticLine d
  let shown := if c.hasColor then Markup.escape line else line
  match d.severity with
  | .error => c.error? shown
  | .warning => if c.isQuiet && !c.isVerbose then some .none else c.warning? shown

/-! ## Data -/

/-- A text as it is. -/
def data (s : String) : Streams := .toOutput (s ++ "\n")

/-- A value as JSON. -/
def json (v : Value) : Streams := data (Json.write v)

/-- Generated source, with one line feed at its end. -/
def source (text : String) : Streams :=
  data (String.ofList (text.toList.reverse.dropWhile (· = '\n')).reverse)

/-- A row as an entry for each header; a header that comes twice has the later cell. -/
def record (headers row : List String) : Value :=
  .map (Value.entriesOf ((headers.zip row).map fun p => (.text p.1, .text p.2)))

/-- A table: as JSON a list of records, else a line for the headers and one for each row, with
tabulators between the cells. -/
def table (c : Console) (headers : List String) (rows : List (List String)) : Streams :=
  if c.format = .json then json (.list (rows.map (record headers)))
  else data (Text.joinWith "\n" ((headers :: rows).map (Text.joinWith "\t")))

end Console

end TypedClient

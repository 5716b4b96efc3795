import TypedClient.Command.Options
import TypedClient.Settings.Layers

/-!
# What a command line asks for

Options in front of the command hold for every command; the command's own options may stand anywhere
behind it.

* `Command.Invocation`: what is asked for.
* `Command.Invocation.ofArguments`: what arguments ask for.
-/

namespace TypedClient.Command

/-- The choices that hold for every command. -/
structure Globals where
  asJson : Bool := false
  asPlain : Bool := false
  noColor : Bool := false
  isQuiet : Bool := false
  isVerbose : Bool := false
  isDryRun : Bool := false
deriving Repr, DecidableEq

/-- The choices for a generation. -/
structure GenerateOptions where
  source : String
  directory : String := "."
  flags : Settings.Flags := {}
  configPath : Option String := none
deriving Repr, DecidableEq

/-- The commands. -/
inductive Task where
  | generate (options : GenerateOptions)
  | listOperations (source : String)
  | listSchemas (source : String)
deriving Repr, DecidableEq

/-- What a command line asks for. -/
inductive Invocation where
  /-- Nothing that makes sense. -/
  | misuse
  | help
  | version
  | run (globals : Globals) (task : Task)
deriving Repr, DecidableEq

/-- The options in front of a command. -/
inductive GlobalOption where
  | version
  | json
  | plain
  | noColor
  | quiet
  | verbose
  | dryRun
  | help
deriving Repr, DecidableEq

/-- The options in front of a command, as they are declared. -/
def globalRules : List (Rule GlobalOption) :=
  [⟨["--version"], false, .version⟩, ⟨["--json"], false, .json⟩, ⟨["--plain"], false, .plain⟩,
    ⟨["--no-color"], false, .noColor⟩, ⟨["--quiet", "-q"], false, .quiet⟩,
    ⟨["--verbose", "-v"], false, .verbose⟩, ⟨["--dry-run", "-n"], false, .dryRun⟩,
    ⟨["--help"], false, .help⟩]

/-- The options of a generation. -/
inductive GenerateOption where
  | directory
  | removeTag
  | modifiers (isOn : Bool)
  | typeNamespace
  | configPath
  | help
deriving Repr, DecidableEq

/-- The options of a generation, as they are declared. -/
def generateRules : List (Rule GenerateOption) :=
  [⟨["--out", "-o"], true, .directory⟩,
    ⟨["--remove-tag-from-operation-id", "-r"], false, .removeTag⟩,
    ⟨["--readonly-writeonly"], false, .modifiers true⟩,
    ⟨["--no-readonly-writeonly"], false, .modifiers false⟩, ⟨["--namespace"], true, .typeNamespace⟩,
    ⟨["--config", "-c"], true, .configPath⟩, ⟨["--help"], false, .help⟩]

/-- The only option of a command without options of its own. -/
def helpRules : List (Rule Unit) := [⟨["--help"], false, ()⟩]

/-- The choices with one option in front of a command. -/
def Globals.with (g : Globals) : GlobalOption → Globals
  | .json => { g with asJson := true }
  | .plain => { g with asPlain := true }
  | .noColor => { g with noColor := true }
  | .quiet => { g with isQuiet := true }
  | .verbose => { g with isVerbose := true }
  | .dryRun => { g with isDryRun := true }
  | _ => g

/-- The choices for a generation with one option. -/
def GenerateOptions.with (o : GenerateOptions) (given : Given GenerateOption) : GenerateOptions :=
  match given.meaning with
  | .directory => { o with directory := given.value }
  | .removeTag => { o with flags := { o.flags with removesTag := some true } }
  | .modifiers isOn => { o with flags := { o.flags with modifiers := some isOn } }
  | .typeNamespace => { o with flags := { o.flags with typeNamespace := some given.value } }
  | .configPath => { o with configPath := some given.value }
  | .help => o

namespace Invocation

/-- A generation with the arguments behind the command. -/
def ofGenerate (globals : Globals) (arguments : List String) : Invocation :=
  match split? generateRules true arguments with
  | none => .misuse
  | some (given, others) =>
    if given.any fun g => g.meaning == .help then .help
    else
      match others with
      | [source] => .run globals (.generate (given.foldl GenerateOptions.with { source := source }))
      | _ => .misuse

/-- A listing with the arguments behind its command. -/
def ofListing (globals : Globals) (task : String → Task) (arguments : List String) : Invocation :=
  match split? helpRules true arguments with
  | none => .misuse
  | some (given, others) =>
    if !given.isEmpty then .help
    else
      match others with
      | [source] => .run globals (task source)
      | _ => .misuse

/-- A listing, with the arguments behind the word that starts all listings. -/
def ofInspect (globals : Globals) (arguments : List String) : Invocation :=
  match split? helpRules false arguments with
  | none => .misuse
  | some (given, others) =>
    if !given.isEmpty then .help
    else
      match others with
      | "operations" :: rest => ofListing globals .listOperations rest
      | "schemas" :: rest => ofListing globals .listSchemas rest
      | _ => .misuse

/-- What arguments ask for.  The version and the help win over every command; of these two, the one
that comes first does. -/
def ofArguments (arguments : List String) : Invocation :=
  match split? globalRules false arguments with
  | none => .misuse
  | some (given, others) =>
    let meanings := given.map Given.meaning
    let globals := meanings.foldl Globals.with {}
    match meanings.find? fun m => m == .version || m == .help with
    | some .version => .version
    | some _ => .help
    | none =>
      match others with
      | "generate" :: rest => ofGenerate globals rest
      | "inspect" :: rest => ofInspect globals rest
      | _ => .misuse

end Invocation

end TypedClient.Command

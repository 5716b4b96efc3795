import TypedClient.Json.Lexeme

/-!
# Reading JSON texts

The lexemes of a text are taken one after the other by a machine that keeps the open containers on
a stack and knows what may come next.  Because each step looks at one lexeme only, the first fault
in the text is the one that is reported.

* `Json.step`: one step of the machine.
* `Json.read`: the value of a text, or the fault and where it lies.
* `Json.Fault.describe`: the wording of a fault.
-/

namespace TypedClient.Json

/-- A container whose end has not been read yet. -/
inductive Frame where
  /-- A list with its elements so far, last element first. -/
  | list (items : List Value)
  /-- A map with its entries so far and the name whose value comes next. -/
  | map (entries : Entries) (name : String)
deriving Repr, BEq

/-- What may come next. -/
inductive Awaited where
  | value
  | valueOrEnd
  | name
  | nameOrEnd
  | colon
  | separator
deriving Repr, DecidableEq

/-- The state of the machine: still inside the value, or behind it. -/
inductive State where
  | within (frames : List Frame) (awaited : Awaited)
  | behind (value : Value)
deriving Repr, BEq

/-- Why a text was not read: a fault at a position, or a numeral that is too long. -/
inductive Failure where
  | fault (fault : Fault) (position : Nat)
  | longNumeral
deriving Repr, DecidableEq

/-- The state once a value is complete: it goes into the innermost open container. -/
def complete (value : Value) : List Frame → State
  | [] => .behind value
  | .list items :: frames => .within (.list (value :: items) :: frames) .separator
  | .map entries name :: frames =>
    .within (.map (Value.put (.text name) value entries) name :: frames) .separator

/-- A value starts, or nothing that can be one. -/
def beginValue (frames : List Frame) (lexeme : Lexeme) : Except Failure State :=
  match lexeme.token with
  | .text s => .ok (complete (.text s) frames)
  | .scalar v => .ok (complete v frames)
  | .openList => .ok (.within (.list [] :: frames) .valueOrEnd)
  | .openMap => .ok (.within (.map [] "" :: frames) .nameOrEnd)
  | .longNumeral => .error .longNumeral
  | .faulty fault position => .error (.fault fault position)
  | _ => .error (.fault .valueExpected lexeme.start)

/-- The name of an entry starts, or nothing that can be one. -/
def beginName (frames : List Frame) (lexeme : Lexeme) : Except Failure State :=
  match frames, lexeme.token with
  | .map entries _ :: outer, .text s => .ok (.within (.map entries s :: outer) .colon)
  | _, .faulty fault position => .error (.fault fault position)
  | _, _ => .error (.fault .nameExpected lexeme.start)

/-- Behind an element or an entry: the container goes on or ends. -/
def continueOrEnd (frames : List Frame) (lexeme : Lexeme) : Except Failure State :=
  match frames, lexeme.token with
  | .list _ :: _, .comma => .ok (.within frames .value)
  | .list items :: outer, .closeList => .ok (complete (.list items.reverse) outer)
  | .map _ _ :: _, .comma => .ok (.within frames .name)
  | .map entries _ :: outer, .closeMap => .ok (complete (.map entries) outer)
  | _, _ => .error (.fault .commaExpected lexeme.start)

/-- One step of the machine. -/
def step (state : State) (lexeme : Lexeme) : Except Failure State :=
  match state with
  | .behind value =>
    if lexeme.token == .finish then .ok (.behind value)
    else .error (.fault .trailingData lexeme.start)
  | .within frames .value => beginValue frames lexeme
  | .within frames .valueOrEnd =>
    match frames, lexeme.token with
    | .list _ :: outer, .closeList => .ok (complete (.list []) outer)
    | _, _ => beginValue frames lexeme
  | .within frames .name => beginName frames lexeme
  | .within frames .nameOrEnd =>
    match frames, lexeme.token with
    | .map _ _ :: outer, .closeMap => .ok (complete (.map []) outer)
    | _, _ => beginName frames lexeme
  | .within frames .colon =>
    if lexeme.token == .colon then .ok (.within frames .value)
    else .error (.fault .colonExpected lexeme.start)
  | .within frames .separator => continueOrEnd frames lexeme

/-- The value of a text.  A text that starts with a byte order mark is refused. -/
def readChars (s : List Char) : Except Failure Value :=
  if s.head? = some '\ufeff' then .error (.fault .byteOrderMark 0)
  else
    match (lexemes s).foldlM step (.within [] .value) with
    | .ok (.behind value) => .ok value
    | .ok (.within _ _) => .error (.fault .valueExpected s.length)
    | .error failure => .error failure

/-- The value of a text. -/
def read (s : String) : Except Failure Value :=
  readChars s.toList

/-! ## Wording -/

/-- What is wrong, in words. -/
def Fault.text : Fault → String
  | .valueExpected => "Expecting value"
  | .nameExpected => "Expecting property name enclosed in double quotes"
  | .colonExpected => "Expecting ':' delimiter"
  | .commaExpected => "Expecting ',' delimiter"
  | .trailingData => "Extra data"
  | .unterminatedText => "Unterminated string starting at"
  | .controlCharacter => "Invalid control character at"
  | .unknownEscape => "Invalid \\escape"
  | .incompleteEscape => "Invalid \\uXXXX escape"
  | .byteOrderMark => "Unexpected UTF-8 BOM (decode using utf-8-sig)"

/-- The wording of a fault at a position of a text: what is wrong, the line, the column and the
position.  Lines and columns count from one, positions from zero. -/
def Fault.describe (fault : Fault) (source : List Char) (position : Nat) : String :=
  let before := source.take position
  let line := before.count '\n' + 1
  let column := (before.reverse.takeWhile (· ≠ '\n')).length + 1
  fault.text ++ ": line " ++ toString line ++ " column " ++ toString column ++
    " (char " ++ toString position ++ ")"

end TypedClient.Json

import TypedClient.Yaml.Block
import TypedClient.Yaml.Plain
import TypedClient.Yaml.Property
import TypedClient.Yaml.Quoted

/-!
# Tokens of YAML texts

A YAML text is cut into tokens.  Besides the visible marks there are tokens for the start and the
end of a block collection, which follow from the indentation, and a token in front of each key of a
block mapping.  That something is a key shows only at the colon behind it; the machine therefore
remembers where a key may have started and puts the token there once the colon is found.

A fault ends the sequence with a token of its own, so that a reader meets what is wrong in front of
it first.

* `Yaml.Token`: the tokens.
* `Yaml.Scan.step`: the token that starts at a place.
* `Yaml.tokensOf`: the tokens of a text.
-/

namespace TypedClient.Yaml

/-- The smallest parts of a YAML text. -/
inductive Token where
  | finish
  | directive (d : Directive)
  | documentStart
  | documentEnd
  | blockSequenceStart
  | blockMappingStart
  | blockEnd
  | flowSequenceStart
  | flowSequenceEnd
  | flowMappingStart
  | flowMappingEnd
  | comma
  | dash
  | key
  | colon
  | alias (name : String)
  | anchor (name : String)
  | tag (t : WrittenTag)
  | scalar (text : String) (isPlain : Bool)
  | fault (f : Fault)
deriving Repr, DecidableEq

/-- A place where a key may have started: the number of the token there, and the place.  In a block
mapping a key has to start where the indentation says so. -/
structure KeyStart where
  level : Nat
  token : Nat
  isRequired : Bool
  index : Nat
  line : Nat
  column : Nat
deriving Repr

/-- The state of the machine that cuts a text. -/
structure Scan where
  /-- The tokens so far, last token first. -/
  tokens : List Token
  /-- Their number. -/
  count : Nat
  /-- The number of open flow collections. -/
  level : Nat
  /-- The column of the innermost block collection. -/
  indent : Int
  /-- The columns of the block collections around it. -/
  outer : List Int
  /-- May a key start here? -/
  mayStartKey : Bool
  /-- The places where keys may have started, at most one for each flow level. -/
  keyStarts : List KeyStart
deriving Repr

namespace Scan

/-- The state at the start of a text. -/
def initial : Scan := ⟨[], 0, 0, -1, [], true, []⟩

/-- Are we inside a flow collection? -/
def inFlow (s : Scan) : Bool := s.level != 0

/-- Adds a token at the end. -/
def push (s : Scan) (t : Token) : Scan :=
  { s with tokens := t :: s.tokens, count := s.count + 1 }

/-! ## Keys -/

/-- A key lies within one line and has at most 1024 characters. -/
def KeyStart.isStale (k : KeyStart) (p : Place) : Bool :=
  k.line != p.line || decide (p.index - k.index > 1024)

/-- Forgets the places that are too far behind to be the start of a key. -/
def dropStale (s : Scan) (p : Place) : Except Fault Scan :=
  if s.keyStarts.any fun k => KeyStart.isStale k p && k.isRequired then .error .malformed
  else .ok { s with keyStarts := s.keyStarts.filter fun k => !KeyStart.isStale k p }

/-- Forgets where a key may have started at the current flow level. -/
def dropKeyStart (s : Scan) : Except Fault Scan :=
  if s.keyStarts.any fun k => k.level == s.level && k.isRequired then .error .malformed
  else .ok { s with keyStarts := s.keyStarts.filter fun k => k.level != s.level }

/-- Remembers that a key may start here. -/
def saveKeyStart (s : Scan) (p : Place) : Except Fault Scan :=
  if s.mayStartKey then do
    let s ← s.dropKeyStart
    let isRequired := !s.inFlow && decide (s.indent = p.column)
    return { s with
      keyStarts := ⟨s.level, s.count, isRequired, p.index, p.line, p.column⟩ :: s.keyStarts }
  else .ok s

/-- Puts tokens in front of the token with a number. -/
def insertAt (s : Scan) (number : Nat) (new : List Token) : Scan :=
  let behind := s.count - number
  { s with
    tokens := s.tokens.take behind ++ new.reverse ++ s.tokens.drop behind
    count := s.count + new.length }

/-! ## Indentation -/

/-- The number of block collections that are indented deeper than the column, with the columns of
those that are not. -/
def deeperThan (column : Int) : (indent : Int) → (outer : List Int) → Nat × Int × List Int
  | indent, [] => (0, indent, [])
  | indent, next :: outer =>
    if indent > column then
      let (ended, rest) := deeperThan column next outer
      (ended + 1, rest)
    else (0, indent, next :: outer)

/-- Ends the block collections that are indented deeper than the column; inside flow collections
indentation does not matter. -/
def unwind (s : Scan) (column : Int) : Scan :=
  if s.inFlow then s
  else
    let (ended, indent, outer) := deeperThan column s.indent s.outer
    { s with
      tokens := List.replicate ended .blockEnd ++ s.tokens
      count := s.count + ended
      indent := indent
      outer := outer }

/-- Goes in to a column, if it lies deeper than the current one. -/
def indentTo? (s : Scan) (column : Nat) : Option Scan :=
  if s.indent < column then some { s with indent := column, outer := s.indent :: s.outer } else none

/-- Goes in to a column with a token that starts a block collection there. -/
def openBlock (s : Scan) (column : Nat) (t : Token) : Scan :=
  match s.indentTo? column with
  | some deeper => deeper.push t
  | none => s

/-! ## Marks -/

/-- A mark at the start of a line that belongs to the document as a whole. -/
def documentMark (s : Scan) (t : Token) : Except Fault Scan := do
  let s ← (s.unwind (-1)).dropKeyStart
  return { s with mayStartKey := false }.push t

/-- A bracket that opens a flow collection. -/
def openFlow (s : Scan) (p : Place) (t : Token) : Except Fault Scan := do
  let s ← s.saveKeyStart p
  return { s with level := s.level + 1, mayStartKey := true }.push t

/-- A bracket that closes a flow collection. -/
def closeFlow (s : Scan) (t : Token) : Except Fault Scan := do
  let s ← s.dropKeyStart
  return { s with level := s.level - 1, mayStartKey := false }.push t

/-- A comma between the items of a flow collection. -/
def comma (s : Scan) : Except Fault Scan := do
  let s ← { s with mayStartKey := true }.dropKeyStart
  return s.push .comma

/-- A hyphen in front of an item of a block sequence. -/
def dash (s : Scan) (p : Place) : Except Fault Scan := do
  if !s.inFlow && !s.mayStartKey then throw .malformed
  let s := if s.inFlow then s else s.openBlock p.column .blockSequenceStart
  let s ← { s with mayStartKey := true }.dropKeyStart
  return s.push .dash

/-- A question mark in front of a key. -/
def questionMark (s : Scan) (p : Place) : Except Fault Scan := do
  if !s.inFlow && !s.mayStartKey then throw .malformed
  let s := if s.inFlow then s else s.openBlock p.column .blockMappingStart
  let s ← { s with mayStartKey := !s.inFlow }.dropKeyStart
  return s.push .key

/-- A colon in front of a value.  If a key may have started at this level, it did; otherwise the key
was announced by a question mark, or is empty. -/
def colon (s : Scan) (p : Place) : Except Fault Scan :=
  match s.keyStarts.find? fun k => k.level == s.level with
  | some k =>
    let s := { s with
      keyStarts := s.keyStarts.filter fun k => k.level != s.level
      mayStartKey := false }
    let deeper? := if s.inFlow then none else s.indentTo? k.column
    match deeper? with
    | some deeper => .ok ((deeper.insertAt k.token [.blockMappingStart, .key]).push .colon)
    | none => .ok ((s.insertAt k.token [.key]).push .colon)
  | none => do
    if !s.inFlow && !s.mayStartKey then throw .malformed
    let s := if s.inFlow then s else s.openBlock p.column .blockMappingStart
    let s ← { s with mayStartKey := !s.inFlow }.dropKeyStart
    return s.push .colon

/-! ## Names and scalars -/

/-- A token that may be a key as a whole, or the start of one: `read` gives the token and its length
behind the first character. -/
def keyToken (s : Scan) (p : Place) (read : Except Fault (Token × Nat)) :
    Except Fault (Scan × Nat) := do
  let s ← s.saveKeyStart p
  let (t, size) ← read
  return ({ s with mayStartKey := false }.push t, size)

/-- The result of a reader that either finds something or finds that the text is malformed. -/
def found {α : Type} (read : Option α) : Except Fault α :=
  match read with
  | some a => .ok a
  | none => .error .malformed

/-- A quoted scalar. -/
def quoted (s : Scan) (p : Place) (rest : List Place) : Except Fault (Scan × Nat) :=
  s.keyToken p do
    let (text, size) ← Quoted.scan (p.char = '"') rest
    return (.scalar (String.ofList text) false, size)

/-- A block scalar. -/
def blockScalar (s : Scan) (p : Place) (rest : List Place) : Except Fault (Scan × Nat) := do
  let s ← { s with mayStartKey := true }.dropKeyStart
  let (text, size) ← Block.scan (p.char = '>') s.indent rest
  return (s.push (.scalar (String.ofList text) false), size)

/-- A plain scalar; behind it a key may start if a line has ended. -/
def plain (s : Scan) (p : Place) (rest : List Place) : Except Fault (Scan × Nat) := do
  let s ← s.saveKeyStart p
  let found := Plain.scan s.inFlow (s.indent + 1) (p :: rest)
  return ({ s with mayStartKey := found.endsLine }.push
    (.scalar (String.ofList found.text) true), found.size - 1)

/-! ## Steps -/

/-- The token that starts with the character at `p`, with its length behind that character. -/
def token (s : Scan) (p : Place) (rest : List Place) : Except Fault (Scan × Nat) :=
  let c := p.char
  let next := headChar rest
  let standsAlone := s.inFlow || endsWord next
  if c = '%' ∧ p.column = 0 then do
    let s ← (s.unwind (-1)).dropKeyStart
    let (directive, size) ← found (Property.directive? rest)
    return ({ s with mayStartKey := false }.push (.directive directive), size)
  else if p.column = 0 ∧ startsHyphens (p :: rest) then (s.documentMark .documentStart).map (·, 2)
  else if p.column = 0 ∧ startsPoints (p :: rest) then (s.documentMark .documentEnd).map (·, 2)
  else if c = '[' then (s.openFlow p .flowSequenceStart).map (·, 0)
  else if c = '\x7b' then (s.openFlow p .flowMappingStart).map (·, 0)
  else if c = ']' then (s.closeFlow .flowSequenceEnd).map (·, 0)
  else if c = '\x7d' then (s.closeFlow .flowMappingEnd).map (·, 0)
  else if c = ',' then s.comma.map (·, 0)
  else if c = '-' ∧ endsWord next then (s.dash p).map (·, 0)
  else if c = '?' ∧ standsAlone then (s.questionMark p).map (·, 0)
  else if c = ':' ∧ standsAlone then (s.colon p).map (·, 0)
  else if c = '*' then s.keyToken p ((found (Property.name? rest)).map fun (n, k) => (.alias n, k))
  else if c = '&' then s.keyToken p ((found (Property.name? rest)).map fun (n, k) => (.anchor n, k))
  else if c = '!' then
    s.keyToken p ((found (Property.tag? (p :: rest))).map fun (t, k) => (.tag t, k - 1))
  else if (c = '|' ∨ c = '>') ∧ !s.inFlow then s.blockScalar p rest
  else if c = '\'' ∨ c = '"' then s.quoted p rest
  else if Plain.starts s.inFlow c next then s.plain p rest
  else .error .malformed

/-- One step of the machine, at a place where neither a blank nor a comment stands. -/
def step (s : Scan) (p : Place) (rest : List Place) : Except Fault (Scan × Nat) := do
  let s ← s.dropStale p
  (s.unwind p.column).token p rest

/-- The end of the text. -/
def finish (s : Scan) (p : Place) : Except Fault Scan := do
  let s ← s.dropStale p
  let s ← (s.unwind (-1)).dropKeyStart
  return s.push .finish

/-- The length of blanks, comments and line ends at the front, and whether a line ends there. -/
def skipLength (inComment : Bool) : List Place → Nat × Bool
  | [] => (0, false)
  | p :: rest =>
    if isBreak p.char then ((skipLength false rest).1 + 1, true)
    else if p.char != endMark && (inComment || p.char == '#') then
      let (size, endsLine) := skipLength true rest
      (size + 1, endsLine)
    else if p.char == ' ' then
      let (size, endsLine) := skipLength false rest
      (size + 1, endsLine)
    else (0, false)

/-- The tokens with a fault behind them; `places` starts behind the last token.  As long as a key
may have started, the token there has not been passed on, since it is not known what comes in front
of it. -/
def withFault (s : Scan) (places : List Place) (fault : Fault) : List Token :=
  let pending := s.keyStarts.filter fun k =>
    (places.head?.map fun p => !KeyStart.isStale k p).getD true
  let known := (pending.map KeyStart.token).foldl min s.count
  (s.tokens.drop (s.count - known)).reverse ++ [.fault fault]

/-- The tokens of the rest of a text. -/
def run (s : Scan) (places : List Place) : List Token :=
  let (skipped, endsLine) := skipLength false places
  let ready := if endsLine && !s.inFlow then { s with mayStartKey := true } else s
  match _h : places.drop skipped with
  | [] => s.withFault places .malformed
  | p :: rest =>
    if p.char = endMark then
      match ready.finish p with
      | .ok done => done.tokens.reverse
      | .error fault => s.withFault places fault
    else
      match ready.step p rest with
      | .ok (after, size) => run after (rest.drop size)
      | .error fault => s.withFault places fault
termination_by places.length
decreasing_by
  have := congrArg List.length _h
  simp only [List.length_drop, List.length_cons] at this ⊢
  omega

end Scan

/-- The tokens of a text. -/
def tokensOf (s : List Char) : List Token :=
  if s.all isAllowed then Scan.initial.run (placesOf s) else [.fault .malformed]

end TypedClient.Yaml

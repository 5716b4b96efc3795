import TypedClient.Yaml.Place

/-!
# Block scalars

A block scalar starts with a bar or an angle bracket at the end of a line; the indented lines below
it are its text.  Behind the angle bracket, lines are folded: a line end between two lines that
start with a word reads as a space.  The header may fix the indentation and say what becomes of the
line ends behind the last line.

* `Yaml.Block.header?`: the header of a block scalar.
* `Yaml.Block.scan`: the text of a block scalar.
-/

namespace TypedClient.Yaml.Block

/-- What becomes of the line ends behind the last line. -/
inductive Ending where
  /-- One is kept. -/
  | clip
  /-- None is kept. -/
  | strip
  /-- All are kept. -/
  | keep
deriving Repr, DecidableEq

/-- What the header of a block scalar says. -/
structure Header where
  ending : Ending
  indentation : Option Nat
deriving Repr

/-- The ending that a sign asks for. -/
def ending? (c : Char) : Option Ending :=
  if c = '+' then some .keep
  else if c = '-' then some .strip
  else none

/-- The indentation that a digit asks for; zero is none. -/
def indentation? (c : Char) : Option Nat :=
  if '1' ≤ c ∧ c ≤ '9' then some (c.toNat - 48) else none

/-- The header at the front, up to the end of its line; sign and digit come in any order. -/
def header? (places : List Place) : Option (Header × Nat) :=
  let first := headChar places
  let second := headChar (places.drop 1)
  let (header, size) : Header × Nat :=
    match ending? first, indentation? first with
    | some ending, _ =>
      match indentation? second with
      | some n => (⟨ending, some n⟩, 2)
      | none => (⟨ending, none⟩, 1)
    | none, some n =>
      match ending? second with
      | some ending => (⟨ending, some n⟩, 2)
      | none => (⟨.clip, some n⟩, 1)
    | none, none => (⟨.clip, none⟩, 0)
  let behind := places.drop size
  if headChar behind = ' ' || isLineStop (headChar behind) then
    (restOfLine? behind).map fun n => (header, size + n)
  else none

/-- The empty lines at the front: their line ends, the greatest column that their blanks reach, and
their length. -/
def leadingLines (deepest : Nat) : List Place → List Char × Nat × Nat
  | [] => ([], deepest, 0)
  | p :: rest =>
    if p.char = ' ' then
      let (breaks, column, size) := leadingLines (max deepest (headColumn rest)) rest
      (breaks, column, size + 1)
    else if isBreak p.char then
      let (breaks, column, size) := leadingLines deepest rest
      (p.char :: breaks, column, size + 1)
    else ([], deepest, 0)

/-- The empty lines at the front and the indentation of the line behind them. -/
def emptyLines (indentation : Nat) : List Place → List Char × Nat
  | [] => ([], 0)
  | p :: rest =>
    if p.char = ' ' && p.column < indentation then
      let (breaks, size) := emptyLines indentation rest
      (breaks, size + 1)
    else if isBreak p.char then
      let (breaks, size) := emptyLines indentation rest
      (p.char :: breaks, size + 1)
    else ([], 0)

/-- The lines of a block scalar: the text without the last line end, the last line end, the line
ends of the empty lines behind it, and the length of it all. -/
structure Lines where
  text : List Char
  lastBreak : List Char
  trailing : List Char
  size : Nat
deriving Repr

/-- What two lines of a folded scalar have between them, one being a line that does not start with a
blank and the other starting with the given character. -/
def joint (isFolded : Bool) (breaks : List Char) (lineEnd : List Char) (first next : Char) :
    List Char :=
  if isFolded && lineEnd == ['\n'] && !isSpacing first && !isSpacing next then
    if breaks.isEmpty then [' '] else []
  else lineEnd

/-- The lines at the front, behind the line ends of empty lines. -/
def lines (isFolded : Bool) (indentation : Nat) (breaks : List Char) : List Place → Lines
  | [] => ⟨[], [], breaks, 0⟩
  | p :: rest =>
    if p.column = indentation && p.char != endMark then
      let line := p.char :: runOf (fun c => !isLineStop c) rest
      let after := rest.drop (line.length - 1)
      let lineEnd := if isBreak (headChar after) then [headChar after] else []
      let (later, blankSize) := emptyLines indentation (after.drop lineEnd.length)
      let behind := (after.drop lineEnd.length).drop blankSize
      let size := line.length + lineEnd.length + blankSize
      if headColumn behind = indentation && headChar behind != endMark then
        let more := lines isFolded indentation later behind
        let between := joint isFolded later lineEnd p.char (headChar behind)
        ⟨breaks ++ line ++ between ++ more.text, more.lastBreak, more.trailing, size + more.size⟩
      else ⟨breaks ++ line, lineEnd, later, size⟩
    else ⟨[], [], breaks, 0⟩
termination_by places => places.length
decreasing_by
  simp only [List.length_drop, List.length_cons]
  omega

/-- The text of a block scalar whose bar or angle bracket has been read, with its length; its
parent is indented to the given column. -/
def scan (isFolded : Bool) (parent : Int) (places : List Place) : Except Fault (List Char × Nat) :=
  match header? places with
  | none => .error .malformed
  | some (header, headerSize) =>
    let body := places.drop headerSize
    let least : Nat := max 1 (parent + 1).toNat
    let (breaks, indentation, blankSize) : List Char × Nat × Nat :=
      match header.indentation with
      | none =>
        let (breaks, deepest, size) := leadingLines 0 body
        (breaks, max least deepest, size)
      | some n =>
        let (breaks, size) := emptyLines (least + n - 1) body
        (breaks, least + n - 1, size)
    let found := lines isFolded indentation breaks (body.drop blankSize)
    let tail := match header.ending with
      | .strip => []
      | .clip => found.lastBreak
      | .keep => found.lastBreak ++ found.trailing
    .ok (found.text ++ tail, headerSize + blankSize + found.size)

end TypedClient.Yaml.Block

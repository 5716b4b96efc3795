import TypedClient.Yaml.Place
import TypedClient.Text.Digits
import TypedClient.Text.Surrogate

/-!
# Quoted scalars

A quoted scalar stands between two quotes of one kind.  Blanks inside a line are kept, a single line
end reads as a space together with the blanks around it, and of several line ends the first is
dropped.  Between single quotes a doubled quote is one quote; between double quotes a backslash
starts an escape.

* `Yaml.Quoted.scan`: the contents of a quoted scalar.
* `Yaml.Quoted.escape`: what an escape stands for.
-/

namespace TypedClient.Yaml.Quoted

/-- The characters that escapes of one letter stand for. -/
def letters : List (Char × Nat) :=
  [('0', 0), ('a', 7), ('b', 8), ('t', 9), ('\t', 9), ('n', 10), ('v', 11), ('f', 12), ('r', 13),
    ('e', 27), (' ', 32), ('"', 34), ('\\', 92), ('/', 47), ('N', 0x85), ('_', 0xa0), ('L', 0x2028),
    ('P', 0x2029)]

/-- The number of hexadecimal digits behind a letter that announces a numbered character. -/
def digitCount? (c : Char) : Option Nat :=
  if c = 'x' then some 2
  else if c = 'u' then some 4
  else if c = 'U' then some 8
  else none

/-- The number that hexadecimal digits write. -/
def hexValue? (ds : List Char) : Option Nat :=
  ds.foldl (fun value d => do return (← value) * 16 + (← Text.hexDigit? d)) (some 0)

/-- The number of the character that digits name, if there is such a character. -/
def numbered (count : Nat) (places : List Place) : Except Fault Nat :=
  let ds := charsOf (places.take count)
  if ds.length < count then .error .malformed
  else
    match hexValue? ds with
    | none => .error .malformed
    | some n =>
      if n ≤ 0x10ffff then .ok n
      else if n < Nat.pow 2 31 then .error .outOfRange
      else .error .farOutOfRange

/-- The breaks of the lines at the front that hold blanks only, and the blanks in front of the text
behind them.  A mark of a document at the start of a line is refused. -/
def laterBreaks (atLineStart : Bool) : List Place → Except Fault (List Nat × Nat)
  | [] => .ok ([], 0)
  | p :: rest =>
    if atLineStart && startsMarker (p :: rest) then .error .malformed
    else if isSpacing p.char then do
      let (breaks, size) ← laterBreaks false rest
      return (breaks, size + 1)
    else if isBreak p.char then do
      let (breaks, size) ← laterBreaks true rest
      return (p.char.toNat :: breaks, size + 1)
    else .ok ([], 0)

/-- What an escape stands for, with its length; `places` starts behind the backslash.  An escaped
line end stands for nothing, and so do the blanks at the start of the next line. -/
def escape : List Place → Except Fault (List Nat × Nat)
  | [] => .error .malformed
  | p :: rest =>
    match letters.lookup p.char, digitCount? p.char with
    | some n, _ => .ok ([n], 1)
    | none, some count => do
      let n ← numbered count rest
      return ([n], 1 + count)
    | none, none =>
      if isBreak p.char then do
        let (breaks, size) ← laterBreaks true rest
        return (breaks, 1 + size)
      else .error .malformed

/-- What the blanks and line ends at the front stand for, with their length. -/
def gap (places : List Place) : Except Fault (List Nat × Nat) :=
  let blanks := runOf isSpacing places
  match places.drop blanks.length with
  | [] => .error .malformed
  | p :: rest =>
    if p.char = endMark then .error .malformed
    else if isBreak p.char then do
      let (later, size) ← laterBreaks true rest
      let text :=
        if p.char ≠ '\n' then p.char.toNat :: later
        else if later.isEmpty then [32]
        else later
      return (text, blanks.length + 1 + size)
    else .ok (blanks.map Char.toNat, blanks.length)

/-- The contents at the front, as numbers of characters, and their length with the closing quote. -/
def scanUnits (isDouble : Bool) : List Place → Except Fault (List Nat × Nat)
  | [] => .error .malformed
  | p :: rest =>
    let piece : Except Fault (Option (List Nat × Nat)) :=
      if p.char = endMark then .error .malformed
      else if endsWord p.char then (gap (p :: rest)).map some
      else if isDouble then
        if p.char = '"' then .ok none
        else if p.char = '\\' then (escape rest).map fun e => some (e.1, 1 + e.2)
        else .ok (some ([p.char.toNat], 1))
      else if p.char = '\'' then
        if headChar rest = '\'' then .ok (some ([39], 2)) else .ok none
      else .ok (some ([p.char.toNat], 1))
    match piece with
    | .error fault => .error fault
    | .ok none => .ok ([], 1)
    | .ok (some (units, size)) => do
      let (more, moreSize) ← scanUnits isDouble (rest.drop (size - 1))
      return (units ++ more, 1 + (size - 1) + moreSize)
termination_by places => places.length
decreasing_by
  simp only [List.length_drop, List.length_cons]
  omega

/-- The contents of a quoted scalar whose opening quote has been read, and their length with the
closing quote. -/
def scan (isDouble : Bool) (places : List Place) : Except Fault (List Char × Nat) := do
  let (units, size) ← scanUnits isDouble places
  return (Text.ofCodeUnits units, size)

end TypedClient.Yaml.Quoted

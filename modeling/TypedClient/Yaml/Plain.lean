import TypedClient.Yaml.Place

/-!
# Plain scalars

A plain scalar has no quotes around it.  It consists of words; the blanks between two words of one
line are kept, a single line end between them reads as a space, and of several line ends the first
is dropped.  Each function says how many places it has read.

* `Yaml.Plain.scan`: the plain scalar at the front of a text.
* `Yaml.Plain.starts`: whether a plain scalar starts with a character.
-/

namespace TypedClient.Yaml.Plain

/-- Is the character one that never starts a plain scalar, unless it is a hyphen, a question mark or
a colon with a word behind it? -/
def isIndicator (c : Char) : Bool :=
  "-?:,[]\x7b\x7d#&*!|>'\"%@\x60".toList.contains c

/-- Does a plain scalar start with the character, in front of the next one? -/
def starts (inFlow : Bool) (c next : Char) : Bool :=
  !(endsWord c || isIndicator c) ||
    (!endsWord next && (c == '-' || (!inFlow && (c == '?' || c == ':'))))

/-- Does a word end in front of the character, which has `next` behind it? -/
def stops (inFlow : Bool) (c next : Char) : Bool :=
  endsWord c || (c == ':' && (endsWord next || (inFlow && isFlowMark next))) ||
    (inFlow && (isFlowMark c || c == '?'))

/-- The word at the front. -/
def word (inFlow : Bool) : List Place → List Char
  | [] => []
  | p :: rest => if stops inFlow p.char (headChar rest) then [] else p.char :: word inFlow rest

/-- What stands between two words: the text it reads as, its length, and whether it holds a line
end.  The text is empty if the scalar ends here. -/
structure Gap where
  text : List Char
  size : Nat
  hasBreak : Bool
deriving Repr

/-- The line ends behind the first one, with the blanks between them. -/
def laterBreaks : List Place → Option (List Char) × Nat
  | [] => (some [], 0)
  | p :: rest =>
    if p.char = ' ' then
      let (breaks, size) := laterBreaks rest
      (breaks, size + 1)
    else if isBreak p.char then
      if startsMarker rest then (none, 1)
      else
        let (breaks, size) := laterBreaks rest
        (breaks.map (p.char :: ·), size + 1)
    else (some [], 0)

/-- The gap at the front.  A mark of a document behind a line end ends the scalar. -/
def gap (places : List Place) : Gap :=
  let blanks := runOf (· == ' ') places
  match places.drop blanks.length with
  | [] => ⟨blanks, blanks.length, false⟩
  | p :: rest =>
    if isBreak p.char then
      if startsMarker rest then ⟨[], blanks.length + 1, true⟩
      else
        let (breaks, size) := laterBreaks rest
        let text := match breaks with
          | none => []
          | some later =>
            if p.char ≠ '\n' then p.char :: later
            else if later.isEmpty then [' ']
            else later
        ⟨text, blanks.length + 1 + size, true⟩
    else ⟨blanks, blanks.length, false⟩

/-- A scalar that has been read: its text, its length, and whether it was followed by a line end. -/
structure Scanned where
  text : List Char
  size : Nat
  endsLine : Bool
deriving Repr

/-- The plain scalar at the front; `margin` is the least column at which a further line of it may
start outside flow collections. -/
def scan (inFlow : Bool) (margin : Int) : List Place → Scanned
  | [] => ⟨[], 0, false⟩
  | p :: rest =>
    let first := p.char :: word inFlow rest
    let gap := gap (rest.drop (first.length - 1))
    let behind := (rest.drop (first.length - 1)).drop gap.size
    let size := first.length + gap.size
    let next := headChar behind
    if gap.text.isEmpty || next == '#' ||
        (!inFlow && decide ((headColumn behind : Int) < margin)) ||
        stops inFlow next (headChar (behind.drop 1)) then
      ⟨first, size, gap.hasBreak⟩
    else
      let more := scan inFlow margin behind
      ⟨first ++ gap.text ++ more.text, size + more.size, more.endsLine⟩
termination_by places => places.length
decreasing_by
  simp only [List.length_drop, List.length_cons]
  omega

end TypedClient.Yaml.Plain

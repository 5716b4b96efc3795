import TypedClient.Calendar

/-!
# Timestamps

A timestamp is a date, or a date and a time with an optional fraction of a second and an optional
offset from universal time.

* `Yaml.Timestamp.read?`: the parts of a timestamp.
* `Yaml.Timestamp.isImplicit`: the timestamps that need no tag.
-/

namespace TypedClient.Yaml

/-- The time of a timestamp; the offset counts minutes. -/
structure Clock where
  hour : Nat
  minute : Nat
  second : Nat
  fraction : List Char
  offset : Option Int
deriving Repr, DecidableEq

/-- A timestamp as it is written, in or out of range. -/
structure Timestamp where
  year : Nat
  month : List Char
  day : List Char
  clock : Option Clock
deriving Repr, DecidableEq

namespace Timestamp

/-- The number that ASCII digits write. -/
def number (ds : List Char) : Nat :=
  ds.foldl (fun n d => n * 10 + (d.toNat - 48)) 0

/-- The digits at the front, if their number lies between two bounds, and the text behind them. -/
def digits? (least most : Nat) (s : List Char) : Option (List Char × List Char) :=
  let ds := s.takeWhile Char.isDigit
  if least ≤ ds.length ∧ ds.length ≤ most then some (ds, s.drop ds.length) else none

/-- The text behind a character at the front. -/
def after? (c : Char) : List Char → Option (List Char)
  | d :: rest => if d = c then some rest else none
  | [] => none

/-- The text behind what separates the time from the date: the letter T, or blanks. -/
def behindSeparator? : List Char → Option (List Char)
  | 'T' :: rest => some rest
  | 't' :: rest => some rest
  | s =>
    let rest := s.dropWhile fun c => c = ' ' ∨ c = '\t'
    if rest.length < s.length then some rest else none

/-- The offset that the whole text writes: `Z`, or a sign, hours and perhaps minutes. -/
def offset? : List Char → Option Int
  | ['Z'] => some 0
  | sign :: s =>
    if sign = '+' ∨ sign = '-' then do
      let (hours, s) ← digits? 1 2 s
      let minutes ← match s with
        | [] => some 0
        | _ => do
          let (minutes, s) ← digits? 2 2 (← after? ':' s)
          if s.isEmpty then some (number minutes) else none
      let size : Int := (number hours * 60 + minutes : Nat)
      return if sign = '-' then -size else size
    else none
  | [] => none

/-- The time that the whole text writes. -/
def clock? (s : List Char) : Option Clock := do
  let (hour, s) ← digits? 1 2 s
  let (minute, s) ← digits? 2 2 (← after? ':' s)
  let (second, s) ← digits? 2 2 (← after? ':' s)
  let fraction := match after? '.' s with
    | some behind => behind.takeWhile Char.isDigit
    | none => []
  let s := match after? '.' s with
    | some behind => behind.dropWhile Char.isDigit
    | none => s
  let offset ← match s with
    | [] => some none
    | _ => (offset? (s.dropWhile fun c => c = ' ' ∨ c = '\t')).map some
  return ⟨number hour, number minute, number second, fraction, offset⟩

/-- The timestamp that the whole text writes. -/
def read? (s : List Char) : Option Timestamp := do
  let (year, s) ← digits? 4 4 s
  let (month, s) ← digits? 1 2 (← after? '-' s)
  let (day, s) ← digits? 1 2 (← after? '-' s)
  let clock ← match s with
    | [] => some none
    | _ => (clock? (← behindSeparator? s)).map some
  return ⟨number year, month, day, clock⟩

/-- Without a tag, a date alone is a timestamp only if month and day have two digits. -/
def isImplicit (s : List Char) : Bool :=
  match read? s with
  | some t => t.clock.isSome || (t.month.length = 2 && t.day.length = 2)
  | none => false

/-- The microseconds of a fraction, of which six digits count. -/
def microseconds (fraction : List Char) : Nat :=
  let ds := fraction.take 6
  number ds * Nat.pow 10 (6 - ds.length)

/-- The day of the timestamp, if the calendar has it. -/
def day? (t : Timestamp) : Option Day :=
  Day.make? t.year (number t.month) (number t.day)

/-- The moment of a timestamp with a time, if all its parts are in range. -/
def moment? (t : Timestamp) (c : Clock) : Option Moment := do
  Moment.make? (← t.day?) c.hour c.minute c.second (microseconds c.fraction)
    (c.offset.map (· * 60))

end Timestamp

end TypedClient.Yaml

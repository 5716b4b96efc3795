/-!
# Dates and times of day

The calendar values that documents hold: a day of the Gregorian calendar and a moment, which is a
day with a time and perhaps an offset from universal time.

* `Day.make?`, `Moment.make?`: the values with all their parts in range.
* `Day.text`, `Moment.text`: the written forms, most significant part first.
* `Moment.same`: moments with offsets are the same if they fall on the same instant.
-/

namespace TypedClient

/-- A number in decimal with zeros in front up to a width. -/
def padded (width n : Nat) : String :=
  let ds := Nat.toDigits 10 n
  String.ofList (List.replicate (width - ds.length) '0' ++ ds)

/-- A day of the calendar. -/
structure Day where
  year : Nat
  month : Nat
  day : Nat
deriving Repr, DecidableEq, Inhabited

/-- A day with a time; `offset` counts the seconds by which local time is ahead of universal
time. -/
structure Moment where
  day : Day
  hour : Nat
  minute : Nat
  second : Nat
  microsecond : Nat
  offset : Option Int
deriving Repr, DecidableEq, Inhabited

namespace Day

/-- Is the year a leap year? -/
def isLeap (year : Nat) : Bool :=
  year % 4 == 0 && (year % 100 != 0 || year % 400 == 0)

/-- The number of days of a month. -/
def monthLength (year month : Nat) : Nat :=
  match month with
  | 2 => if isLeap year then 29 else 28
  | 4 | 6 | 9 | 11 => 30
  | _ => 31

/-- The day with these parts, if the calendar has it. -/
def make? (year month day : Nat) : Option Day :=
  if 1 ≤ year ∧ year ≤ 9999 ∧ 1 ≤ month ∧ month ≤ 12 ∧ 1 ≤ day ∧ day ≤ monthLength year month then
    some ⟨year, month, day⟩
  else
    none

/-- The days from the start of the calendar to the start of a month. -/
def daysBefore (year month : Nat) : Nat :=
  let y := year - 1
  y * 365 + y / 4 - y / 100 + y / 400 +
    (List.range (month - 1)).foldl (fun days m => days + monthLength year (m + 1)) 0

/-- The number of the day, counted from the start of the calendar. -/
def ordinal (d : Day) : Nat :=
  daysBefore d.year d.month + d.day

/-- Year, month and day with hyphens between. -/
def text (d : Day) : String :=
  padded 4 d.year ++ "-" ++ padded 2 d.month ++ "-" ++ padded 2 d.day

end Day

namespace Moment

/-- The moment with these parts, if all of them are in range; an offset is less than a day. -/
def make? (day : Day) (hour minute second microsecond : Nat) (offset : Option Int) :
    Option Moment :=
  let offsetFits : Bool := match offset with
    | some s => decide (-86400 < s ∧ s < 86400)
    | none => true
  if hour ≤ 23 ∧ minute ≤ 59 ∧ second ≤ 59 ∧ microsecond ≤ 999999 ∧ offsetFits then
    some ⟨day, hour, minute, second, microsecond, offset⟩
  else
    none

/-- The microseconds from the start of the calendar, in local time. -/
def localInstant (m : Moment) : Int :=
  ((((m.day.ordinal * 24 + m.hour) * 60 + m.minute) * 60 + m.second) * 1000000 +
    m.microsecond : Nat)

/-- Two moments with offsets are the same if they fall on one instant, two without offsets if they
read alike; a moment with an offset is never the same as one without. -/
def same (m n : Moment) : Bool :=
  match m.offset, n.offset with
  | none, none => m == n
  | some s, some t => m.localInstant - s * 1000000 == n.localInstant - t * 1000000
  | _, _ => false

/-- The offset as sign, hours and minutes, with seconds if there are any. -/
def offsetText (offset : Int) : String :=
  let size := offset.natAbs
  let seconds := if size % 60 = 0 then "" else ":" ++ padded 2 (size % 60)
  (if offset < 0 then "-" else "+") ++ padded 2 (size / 3600) ++ ":" ++
    padded 2 (size / 60 % 60) ++ seconds

/-- Day and time with a separator between them; a fraction of a second has six digits. -/
def textWith (separator : String) (m : Moment) : String :=
  let fraction := if m.microsecond = 0 then "" else "." ++ padded 6 m.microsecond
  m.day.text ++ separator ++ padded 2 m.hour ++ ":" ++ padded 2 m.minute ++ ":" ++
    padded 2 m.second ++ fraction ++
    match m.offset with
    | none => ""
    | some s => offsetText s

/-- Day and time with the letter `T` between them. -/
def text (m : Moment) : String :=
  m.textWith "T"

end Moment

end TypedClient

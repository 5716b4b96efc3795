import TypedClient.Binary64
import TypedClient.Calendar

/-!
# Document values

The values that a decoded document holds, whichever format it was written in.  A map keeps its
entries in the order in which their keys first appeared, and its keys are values: most are texts,
but a document may use numbers, truth values, days or null as keys as well.

* `Value`: the values.
* `Value.sameKey`: the equality by which a map tells its keys apart.
* `Value.put`, `Value.get?`: writing and reading an entry.
* `Value.isTruthy`: which values count as given.
* `Value.isNull`, `Value.isWord`: what a keyword's value is compared with.
* `Value.kindName`: the word for the kind of a value.
-/

namespace TypedClient

/-- A value of a decoded document. -/
inductive Value where
  | null
  | bool (b : Bool)
  | int (i : Int)
  | float (x : Binary64)
  | text (s : String)
  | day (d : Day)
  | moment (m : Moment)
  | bytes (data : List UInt8)
  | set (members : List Value)
  | pair (first second : Value)
  | list (items : List Value)
  | map (entries : List (Value × Value))
deriving Repr, BEq, Inhabited

/-- The entries of a map, in order. -/
abbrev Entries := List (Value × Value)

namespace Value

/-- Can the value be a key?  Containers that may grow cannot. -/
def isKey : Value → Bool
  | .list _ => false
  | .map _ => false
  | .set _ => false
  | .pair a b => a.isKey && b.isKey
  | _ => true

/-- The number that a value stands for among keys; truth values stand for one and zero. -/
def number? : Value → Option Binary64
  | .float x => some x
  | _ => none

/-- The whole number that a value stands for among keys, if it stands for one: integers,
truth values and floats without a fraction. -/
def wholeNumber? : Value → Option Int
  | .bool b => some (if b then 1 else 0)
  | .int i => some i
  | .float x => x.toInt?
  | _ => none

/-- Equality of keys.  Numbers are compared by value whatever their kind, so that `1`, `1.0` and
`true` are one key; values that cannot be keys are equal to nothing. -/
def sameKey : Value → Value → Bool
  | .null, .null => true
  | .text s, .text t => s == t
  | .bytes s, .bytes t => s == t
  | .day d, .day e => d == e
  | .moment m, .moment n => m.same n
  | .pair a b, .pair c d => a.sameKey c && b.sameKey d
  | a, b =>
    match a.wholeNumber?, b.wholeNumber? with
    | some i, some j => i == j
    | none, none =>
      match a.number?, b.number? with
      | some x, some y => x.sameNumber y
      | _, _ => false
    | _, _ => false

/-- Writes an entry: a new key goes to the end, a key already present keeps its place and its
spelling and takes the new value. -/
def put (key value : Value) : Entries → Entries
  | [] => [(key, value)]
  | (k, v) :: rest => if k.sameKey key then (k, value) :: rest else (k, v) :: put key value rest

/-- The entries of a list of pairs, later ones overwriting earlier ones. -/
def entriesOf (pairs : List (Value × Value)) : Entries :=
  pairs.foldl (fun entries p => put p.1 p.2 entries) []

/-- The value under a text key. -/
def lookup? (key : String) : Entries → Option Value
  | [] => none
  | (k, v) :: rest =>
    match k with
    | .text s => if s = key then some v else lookup? key rest
    | _ => lookup? key rest

/-- The value under a text key; anything but a map has no entries. -/
def get? (v : Value) (key : String) : Option Value :=
  match v with
  | .map entries => lookup? key entries
  | _ => none

/-- The value under a text key, null if there is none. -/
def getD (v : Value) (key : String) : Value :=
  (v.get? key).getD .null

/-- Does the value count as given?  Null, false, zero and everything empty do not. -/
def isTruthy : Value → Bool
  | .null => false
  | .bool b => b
  | .int i => i != 0
  | .float x => !x.isZero
  | .text s => !s.isEmpty
  | .bytes data => !data.isEmpty
  | .set members => !members.isEmpty
  | .list items => !items.isEmpty
  | .map entries => !entries.isEmpty
  | _ => true

/-- Is the value the truth value true, and not merely something that counts as given? -/
def isTrue : Value → Bool
  | .bool b => b
  | _ => false

/-- Is the value null? -/
def isNull : Value → Bool
  | .null => true
  | _ => false

/-- Is the value this text? -/
def isWord (word : String) : Value → Bool
  | .text s => s == word
  | _ => false

/-- The word for the kind of a value. -/
def kindName : Value → String
  | .null => "NoneType"
  | .bool _ => "bool"
  | .int _ => "int"
  | .float _ => "float"
  | .text _ => "str"
  | .day _ => "date"
  | .moment _ => "datetime"
  | .bytes _ => "bytes"
  | .set _ => "set"
  | .pair _ _ => "tuple"
  | .list _ => "list"
  | .map _ => "dict"

theorem isNull_iff {v : Value} : v.isNull = true ↔ v = .null := by
  cases v <;> simp [isNull]

/-! ## Reading after writing -/

/-- A text key equals the same text and nothing else. -/
theorem sameKey_text_iff {v : Value} {s : String} : v.sameKey (.text s) = true ↔ v = .text s := by
  cases v <;> simp [sameKey, wholeNumber?, number?]
  case float x => cases x.toInt? <;> simp

/-- Reading a text key after writing it answers what was written. -/
theorem lookup?_put_self (s : String) (v : Value) (entries : Entries) :
    lookup? s (put (.text s) v entries) = some v := by
  induction entries with
  | nil => simp [put, lookup?]
  | cons entry rest ih =>
    obtain ⟨k, w⟩ := entry
    by_cases h : k.sameKey (.text s) = true
    · obtain rfl := sameKey_text_iff.mp h
      simp [put, h, lookup?]
    · simp only [put, h, Bool.false_eq_true, if_false]
      cases k with
      | text t =>
        have hne : t ≠ s := by
          rintro rfl
          exact h (sameKey_text_iff.mpr rfl)
        simp [lookup?, hne, ih]
      | _ => simpa [lookup?] using ih

/-- Writing one text key leaves the others alone. -/
theorem lookup?_put_of_ne {s t : String} (hst : s ≠ t) (v : Value) (entries : Entries) :
    lookup? s (put (.text t) v entries) = lookup? s entries := by
  induction entries with
  | nil => simp [put, lookup?, hst.symm]
  | cons entry rest ih =>
    obtain ⟨k, w⟩ := entry
    by_cases h : k.sameKey (.text t) = true
    · obtain rfl := sameKey_text_iff.mp h
      simp [put, h, lookup?, hst.symm]
    · simp only [put, h, Bool.false_eq_true, if_false]
      cases k <;> simp [lookup?, ih]

end Value

end TypedClient

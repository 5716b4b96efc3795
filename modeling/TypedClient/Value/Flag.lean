import TypedClient.Value

/-!
# Values taken for flags and texts

Settings and declarations that are given as data say yes and no in several ways.

* `Value.flag?`: the truth value that a value stands for.
* `Value.text?`: the text that a value is.
-/

namespace TypedClient.Value

/-- Words for yes. -/
def yesWords : List String := ["1", "true", "t", "yes", "y", "on"]

/-- Words for no. -/
def noWords : List String := ["0", "false", "f", "no", "n", "off"]

/-- The truth value that a value stands for: a truth value, one or zero, or a word for yes or no in
any case. -/
def flag? : Value → Option Bool
  | .bool b => some b
  | .text s =>
    let word := String.ofList (s.toList.map Char.toLower)
    if yesWords.contains word then some true
    else if noWords.contains word then some false
    else none
  | v =>
    match v.wholeNumber? with
    | some 1 => some true
    | some 0 => some false
    | _ => none

/-- The text that a value is. -/
def text? : Value → Option String
  | .text s => some s
  | _ => none

/-- A flag under a key, with a fallback for a key that is missing. -/
def flagAt? (v : Value) (key : String) (fallback : Bool) : Option Bool :=
  match v.get? key with
  | some given => given.flag?
  | none => some fallback

/-- A text under a key, with a fallback for a key that is missing. -/
def textAt? (v : Value) (key fallback : String) : Option String :=
  match v.get? key with
  | some given => given.text?
  | none => some fallback

/-- A text under a key that has to be there. -/
def requiredTextAt? (v : Value) (key : String) : Option String :=
  (v.get? key).bind text?

/-- A text or nothing under a key; null and a missing key are nothing. -/
def optionalTextAt? (v : Value) (key : String) : Option (Option String) :=
  match v.get? key with
  | none => some none
  | some .null => some none
  | some given => given.text?.map some

/-- A list of texts under a key, with a fallback for a key that is missing. -/
def textsAt? (v : Value) (key : String) (fallback : Option (List String)) :
    Option (List String) :=
  match v.get? key with
  | some (.list items) => items.mapM text?
  | some _ => none
  | none => fallback

end TypedClient.Value

import TypedClient.Value
import TypedClient.Binary64.Notation
import TypedClient.Text.Display
import TypedClient.Text.Segments

/-!
# Displayed values

The text by which a value is named in messages and where a text is expected but another value
stands.  A text displays as itself; everything inside a container displays in its literal form.  A
whole number displays with all its digits, however many there are.

* `Value.literalForm`: the literal form, in which texts are quoted.
* `Value.display`: the display of a value.
-/

namespace TypedClient.Value

/-- The literal form of an offset from universal time. -/
def offsetLiteral (seconds : Int) : String :=
  if seconds = 0 then "datetime.timezone.utc"
  else
    let days := seconds / 86400
    let rest := seconds % 86400
    let parts := (if days = 0 then [] else ["days=" ++ toString days]) ++
      (if rest = 0 then [] else ["seconds=" ++ toString rest])
    "datetime.timezone(datetime.timedelta(" ++ Text.joinWith ", " parts ++ "))"

/-- The literal form of a day. -/
def dayLiteral (d : Day) : String :=
  "datetime.date(" ++ Text.joinWith ", " [toString d.year, toString d.month, toString d.day] ++ ")"

/-- The literal form of a moment; seconds and their fraction are left out where they are zero. -/
def momentLiteral (m : Moment) : String :=
  let tail :=
    if m.microsecond ≠ 0 then [toString m.second, toString m.microsecond]
    else if m.second ≠ 0 then [toString m.second]
    else []
  let offset := match m.offset with
    | none => []
    | some s => ["tzinfo=" ++ offsetLiteral s]
  "datetime.datetime(" ++
    Text.joinWith ", "
      ([toString m.day.year, toString m.day.month, toString m.day.day, toString m.hour,
        toString m.minute] ++ tail ++ offset) ++ ")"

mutual

/-- The literal form of a value. -/
def literalForm : Value → String
  | .null => "None"
  | .bool b => if b then "True" else "False"
  | .int i => toString i
  | .float x => x.text
  | .text s => String.ofList (Text.displayQuoted s.toList)
  | .day d => dayLiteral d
  | .moment m => momentLiteral m
  | .bytes data => String.ofList (Text.displayBytes data)
  | .set members =>
    if members.isEmpty then "set()"
    else "\x7b" ++ Text.joinWith ", " (literalForms members) ++ "\x7d"
  | .pair a b => "(" ++ literalForm a ++ ", " ++ literalForm b ++ ")"
  | .list items => "[" ++ Text.joinWith ", " (literalForms items) ++ "]"
  | .map entries => "\x7b" ++ Text.joinWith ", " (entryForms entries) ++ "\x7d"

/-- The literal forms of the members of a container. -/
def literalForms : List Value → List String
  | [] => []
  | v :: rest => literalForm v :: literalForms rest

/-- The literal forms of the entries of a map. -/
def entryForms : List (Value × Value) → List String
  | [] => []
  | (k, v) :: rest => (literalForm k ++ ": " ++ literalForm v) :: entryForms rest

end

/-- The display of a value. -/
def display : Value → String
  | .text s => s
  | .day d => d.text
  | .moment m => m.textWith " "
  | v => literalForm v

end TypedClient.Value

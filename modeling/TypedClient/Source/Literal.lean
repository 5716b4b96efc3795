import TypedClient.Value.Display

/-!
# Literals of the generated source

* `Source.quote`: a text as a string literal in single quotes.
* `Source.literal`: a value as a literal; values that are no scalars are written as the text they
  display as.
-/

namespace TypedClient.Source

/-- A character inside a string literal. -/
def quoteChar (c : Char) : List Char :=
  if c = '\\' then ['\\', '\\']
  else if c = '\'' then ['\\', '\'']
  else if c = '\n' then ['\\', 'n']
  else [c]

/-- The characters of a string literal. -/
def quoteChars (s : List Char) : List Char :=
  '\'' :: s.flatMap quoteChar ++ ['\'']

/-- A text as a string literal. -/
def quote (s : String) : String :=
  String.ofList (quoteChars s.toList)

/-- A value as a literal. -/
def literal : Value → String
  | .null => "null"
  | .bool b => if b then "true" else "false"
  | .int i => toString i
  | .float x => x.text
  | v => quote v.display

end TypedClient.Source

import TypedClient.Text.Segments

/-!
# Path templates

A path may hold placeholders: a name in braces, the name being nonempty and free of braces and
slashes.  Braces that enclose no such name are ordinary characters.

* `PathTemplate.pieces`: a template cut into characters and placeholders.
* `PathTemplate.placeholders`: the names, each once, in the order of their first occurrence.
* `PathTemplate.expand`: the template with values in place of the names that have one.
-/

namespace TypedClient.PathTemplate

/-- A part of a template. -/
inductive Piece where
  | char (c : Char)
  | placeholder (name : List Char)
deriving Repr, DecidableEq

/-- The opening brace of a placeholder. -/
def opening : Char := '\x7b'

/-- The closing brace of a placeholder. -/
def closing : Char := '\x7d'

/-- May the character stand in a placeholder's name? -/
def isNameChar (c : Char) : Bool :=
  c != opening && c != closing && c != '/'

/-- The name at the front of a text that follows an opening brace, if a placeholder is closed
there. -/
def name? (s : List Char) : Option (List Char) :=
  let name := s.takeWhile isNameChar
  if name.isEmpty then none
  else if (s.drop name.length).head? = some closing then some name
  else none

/-- The pieces of a template. -/
def pieces : List Char → List Piece
  | [] => []
  | c :: rest =>
    if c = opening then
      match name? rest with
      | some name => .placeholder name :: pieces (rest.drop (name.length + 1))
      | none => .char c :: pieces rest
    else .char c :: pieces rest
termination_by s => s.length
decreasing_by
  · simp only [List.length_drop, List.length_cons]; omega
  · simp only [List.length_cons]; omega
  · simp only [List.length_cons]; omega

/-- The name of a placeholder. -/
def Piece.name? : Piece → Option String
  | .char _ => none
  | .placeholder name => some (String.ofList name)

/-- The names of a template, each once, in the order of their first occurrence. -/
def placeholders (template : String) : List String :=
  ((pieces template.toList).filterMap Piece.name?).eraseDups

/-- A piece as it stands in the template. -/
def Piece.text : Piece → List Char
  | .char c => [c]
  | .placeholder name => opening :: name ++ [closing]

/-- A piece with a value in place of its name, if the name has one. -/
def Piece.expand (value? : String → Option String) : Piece → List Char
  | .char c => [c]
  | .placeholder name =>
    match value? (String.ofList name) with
    | some value => value.toList
    | none => Piece.text (.placeholder name)

/-- The template with values in place of the names that have one. -/
def expand (template : String) (value? : String → Option String) : String :=
  String.ofList ((pieces template.toList).flatMap (Piece.expand value?))

end TypedClient.PathTemplate

import TypedClient.Text.Segments

/-!
# Identifiers

Names of declarations have to be identifiers of the generated language, and may not be words that
it or its users' scripting language reserve.

* `Identifier.IsSafe`: the identifiers that may be used as names.
* `Identifier.sanitize`: the safe identifier made from any text.
* `Identifier.unused`: a base name, or the base with the least numeric suffix that is still free.
* `Identifier.assign`: names for a sequence of bases, no two alike.
-/

namespace TypedClient.Identifier

/-- Is the character one of those an identifier is written with? -/
def isWord (c : Char) : Bool :=
  ('a' ≤ c && c ≤ 'z') || ('A' ≤ c && c ≤ 'Z') || ('0' ≤ c && c ≤ '9') || c == '_'

/-- Is the character a digit? -/
def isDigit (c : Char) : Bool := '0' ≤ c && c ≤ '9'

/-- Words that the generated language reserves. -/
def targetReserved : List String :=
  ["break", "case", "catch", "class", "const", "continue", "debugger", "default", "delete", "do",
    "else", "enum", "export", "extends", "false", "finally", "for", "function", "if", "implements",
    "import", "in", "instanceof", "interface", "let", "new", "null", "package", "private",
    "protected", "public", "return", "static", "super", "switch", "this", "throw", "true", "try",
    "typeof", "var", "void", "while", "with", "yield"]

/-- Words that scripts which read the generated names reserve. -/
def scriptReserved : List String :=
  ["False", "None", "True", "and", "as", "assert", "async", "await", "break", "class", "continue",
    "def", "del", "elif", "else", "except", "finally", "for", "from", "global", "if", "import",
    "in", "is", "lambda", "nonlocal", "not", "or", "pass", "raise", "return", "try", "while",
    "with", "yield"]

/-- Is the word reserved? -/
def isReserved (s : String) : Bool :=
  targetReserved.contains s || scriptReserved.contains s

/-- A text of word characters that does not start with a digit and is not reserved. -/
def IsSafe (s : String) : Prop :=
  s.toList ≠ [] ∧ (∀ c ∈ s.toList, isWord c) ∧ (∀ c ∈ s.toList.head?, ¬ isDigit c) ∧
    ¬ isReserved s

instance (s : String) : Decidable (IsSafe s) :=
  have : Decidable (∀ c ∈ s.toList, isWord c) := List.decidableBAll _ _
  have : Decidable (∀ c ∈ s.toList.head?, ¬ isDigit c) := Option.decidableForallMem _
  inferInstanceAs (Decidable (_ ∧ _ ∧ _ ∧ _))

/-- A word character, or the underscore in its place. -/
def cleanChar (c : Char) : Char := if isWord c then c else '_'

/-- An underscore in front of a text that starts with a digit. -/
def guardDigit : List Char → List Char
  | [] => []
  | c :: rest => if isDigit c then '_' :: c :: rest else c :: rest

/-- An underscore behind a reserved word. -/
def guardReserved (s : String) : String :=
  if isReserved s then s ++ "_" else s

/-- The safe identifier made from a text: characters that are no word characters become
underscores, then a leading digit and a reserved word are guarded; nothing becomes an
underscore. -/
def sanitize (s : String) : String :=
  match s.toList.map cleanChar with
  | [] => "_"
  | chars => guardReserved (String.ofList (guardDigit chars))

/-! ## Names that are not taken -/

/-- The candidates for a base name: the base itself, then the base with the suffixes `_2`, `_3`
and so on. -/
def candidate (base : String) : Nat → String
  | 0 => base
  | k + 1 => base ++ "_" ++ toString (k + 2)

/-- The first candidate that is not taken; one more candidate than there are taken names is
enough. -/
def unused (taken : List String) (base : String) : String :=
  (((List.range (taken.length + 1)).map (candidate base)).find?
      fun name => !taken.contains name).getD
    base

/-- A name for each base, in order, none of them taken and no two alike. -/
def assign (taken : List String) : (bases : List String) → List String
  | [] => []
  | base :: rest =>
    let name := unused taken base
    name :: assign (name :: taken) rest

@[simp] theorem length_assign (taken bases : List String) :
    (assign taken bases).length = bases.length := by
  induction bases generalizing taken with
  | nil => rfl
  | cons base rest ih => simp [assign, ih]

end TypedClient.Identifier

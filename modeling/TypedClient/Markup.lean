/-!
# Markup

Texts for a terminal with colours hold tags in square brackets, which vanish when the text is shown.
A tag starts with a small letter, a slash, a number sign or an at sign.  Backslashes in front of it
come in pairs, each pair showing one of them; one that is left over shows the tag as it is written.
A tag with a slash closes the one with its name, or the last one if it has no name.

* `Markup.escape`: a text that shows as the given one.
* `Markup.shown?`: what is shown of a text; nothing if it closes a tag that is not open.
-/

namespace TypedClient.Markup

/-- Can the character stand at the start of a tag? -/
def startsTag (c : Char) : Bool :=
  ('a' ≤ c && c ≤ 'z') || c == '#' || c == '/' || c == '@'

/-- The text of the tag whose opening bracket has been read: up to the first closing bracket, with
no other opening bracket in front of that. -/
def tagText? : List Char → Option (List Char)
  | [] => none
  | c :: rest =>
    if !startsTag c then none
    else
      let behind := rest.takeWhile fun d => d != '[' && d != ']'
      if (rest.drop behind.length).head? = some ']' then some (c :: behind) else none

/-- The pieces of a text. -/
inductive Piece where
  | text (s : List Char)
  | tag (s : List Char)
deriving Repr, DecidableEq

/-- What backslashes in front of a tag and the tag itself are: half of the backslashes, and the tag,
or the tag as it is written if there is a backslash left over. -/
def piecesOfTag (backslashes : Nat) (tag : List Char) : List Piece :=
  let kept := Piece.text (List.replicate (backslashes / 2) '\\')
  if backslashes % 2 = 1 then [kept, .text ('[' :: tag ++ [']'])] else [kept, .tag tag]

/-- The pieces of a text; `plain` holds the characters of the open piece, last character first, and
`backslashes` counts the backslashes right in front of the next one, which are not among them. -/
def piecesFrom (plain : List Char) (backslashes : Nat) : (skip : Nat) → List Char → List Piece
  | _, [] => [.text (plain.reverse ++ List.replicate backslashes '\\')]
  | skip + 1, _ :: rest => piecesFrom plain backslashes skip rest
  | 0, c :: rest =>
    if c = '\\' then piecesFrom plain (backslashes + 1) 0 rest
    else
      match (if c = '[' then tagText? rest else none) with
      | some tag =>
        .text plain.reverse :: piecesOfTag backslashes tag ++ piecesFrom [] 0 (tag.length + 1) rest
      | none => piecesFrom (c :: List.replicate backslashes '\\' ++ plain) 0 0 rest

/-- The pieces of a text. -/
def pieces (s : List Char) : List Piece :=
  piecesFrom [] 0 0 s

/-- A piece of plain text with the backslash in front of each bracket left out. -/
def unescaped : List Char → List Char
  | [] => []
  | '\\' :: '[' :: rest => '[' :: unescaped rest
  | c :: rest => c :: unescaped rest

/-- Styles that have a short name. -/
def shortNames : List (String × String) :=
  [("b", "bold"), ("d", "dim"), ("i", "italic"), ("u", "underline"), ("r", "reverse"),
    ("s", "strike"), ("c", "conceal"), ("o", "overline"), ("uu", "underline2")]

/-- The name of a tag without blanks around it and with a short name written out. -/
def nameOf (tag : List Char) : String :=
  let name := tag.takeWhile (· ≠ '=')
  let trimmed := (name.dropWhile Char.isWhitespace).reverse.dropWhile Char.isWhitespace
  let word := String.ofList (trimmed.reverse.map Char.toLower)
  (shortNames.lookup word).getD word

/-- The open tags after a tag, the last one first; nothing if it closes a tag that is not open. -/
def afterTag? (isOpen : List String) : List Char → Option (List String)
  | '/' :: rest =>
    let name := nameOf rest
    if name.isEmpty then
      match isOpen with
      | [] => none
      | _ :: others => some others
    else if isOpen.contains name then some (isOpen.erase name)
    else none
  | tag => some (nameOf tag :: isOpen)

/-- What is shown of pieces, given the tags that are open. -/
def shownPieces? : (isOpen : List String) → List Piece → Option (List Char)
  | _, [] => some []
  | isOpen, .text s :: rest => (shownPieces? isOpen rest).map (unescaped s ++ ·)
  | isOpen, .tag t :: rest => (afterTag? isOpen t).bind fun now => shownPieces? now rest

/-- What is shown of a text. -/
def shown? (s : String) : Option String :=
  (shownPieces? [] (pieces s.toList)).map String.ofList

/-- The characters of a text with every tag escaped; backslashes are counted as in `piecesFrom`. -/
def escapeFrom (backslashes : Nat) : List Char → List Char
  | [] =>
    List.replicate backslashes '\\' ++ (if backslashes = 1 then ['\\'] else [])
  | c :: rest =>
    if c = '\\' then escapeFrom (backslashes + 1) rest
    else if c = '[' && (tagText? rest).isSome then
      List.replicate (2 * backslashes + 1) '\\' ++ c :: escapeFrom 0 rest
    else List.replicate backslashes '\\' ++ c :: escapeFrom 0 rest

/-- A text that shows as the given one. -/
def escape (s : String) : String :=
  String.ofList (escapeFrom 0 s.toList)

end TypedClient.Markup

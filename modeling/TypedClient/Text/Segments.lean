/-!
# Splitting, joining and replacing

* `segments`: the pieces of a text between the occurrences of a separator, at least one.
* `joinWith`: the pieces again with a separator between them.
* `replaceAll`: every occurrence of a part, from left to right, replaced by another.
* `holds`: whether a part occurs.
-/

namespace TypedClient.Text

/-- The pieces of the text between the separators. -/
def segments (sep : Char) : List Char → List (List Char)
  | [] => [[]]
  | c :: rest =>
    if c = sep then [] :: segments sep rest
    else
      match segments sep rest with
      | [] => [[c]]
      | piece :: pieces => (c :: piece) :: pieces

theorem segments_ne_nil (sep : Char) (s : List Char) : segments sep s ≠ [] := by
  cases s with
  | nil => simp [segments]
  | cons c rest =>
    simp only [segments]
    split
    · simp
    · split <;> simp

/-- The texts one after the other with the separator between neighbours. -/
def joinWith (sep : String) : List String → String
  | [] => ""
  | [s] => s
  | s :: rest => s ++ sep ++ joinWith sep rest

@[simp] theorem joinWith_nil (sep : String) : joinWith sep [] = "" := rfl

@[simp] theorem joinWith_singleton (sep s : String) : joinWith sep [s] = s := rfl

theorem joinWith_cons_cons (sep s t : String) (rest : List String) :
    joinWith sep (s :: t :: rest) = s ++ sep ++ joinWith sep (t :: rest) := rfl

/-- The text with the part replaced wherever it occurs; `skip` counts the characters of an
occurrence that are still to be passed over. -/
def replaceFrom (part replacement : List Char) : (skip : Nat) → List Char → List Char
  | _, [] => []
  | skip + 1, _ :: rest => replaceFrom part replacement skip rest
  | 0, c :: rest =>
    if part.isPrefixOf (c :: rest) then
      replacement ++ replaceFrom part replacement (part.length - 1) rest
    else
      c :: replaceFrom part replacement 0 rest

/-- The text with every occurrence of the nonempty part replaced, from left to right. -/
def replaceAll (part replacement s : List Char) : List Char :=
  replaceFrom part replacement 0 s

/-- Does the part occur in the text? -/
def holds (part : List Char) : List Char → Bool
  | [] => part.isEmpty
  | c :: rest => part.isPrefixOf (c :: rest) || holds part rest

end TypedClient.Text

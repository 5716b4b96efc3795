import TypedClient.Yaml.Place
import TypedClient.Text.Digits

/-!
# Names of anchors, tags and directives

A node may carry an anchor, by which aliases refer to it, and a tag, which says what kind of value
it describes.  Directives in front of a document declare the version of the format and the handles
that tags may use.  Each function says how many places it has read.

* `Yaml.Property.name?`: the name of an anchor or an alias.
* `Yaml.Property.tag?`: a tag as it is written.
* `Yaml.Property.directive?`: a directive.
-/

namespace TypedClient.Yaml

/-- A tag as it is written: complete, or behind a handle that a directive declares. -/
structure WrittenTag where
  handle : Option String
  suffix : String
deriving Repr, DecidableEq

/-- A directive in front of a document. -/
inductive Directive where
  /-- The version of the format. -/
  | version (major : Nat)
  /-- What a tag handle stands for. -/
  | handle (name start : String)
  /-- A directive that is not known. -/
  | other
deriving Repr, DecidableEq

namespace Property

/-- May the character stand right behind the name of an anchor or an alias? -/
def endsAnchor (c : Char) : Bool :=
  endsWord c || "?:,]\x7d%@\x60".toList.contains c

/-- The name of the anchor or alias at the front. -/
def name? (places : List Place) : Option (String × Nat) :=
  let name := runOf isNameChar places
  if name.isEmpty || !endsAnchor (headChar (places.drop name.length)) then none
  else some (String.ofList name, name.length)

/-! ## Tags -/

/-- May the character stand in the text of a tag?  The percent sign starts an escaped byte. -/
def isTagChar (c : Char) : Bool :=
  isNameChar c || ";/?:@&=+$,.!~*'()[]".toList.contains c

/-- The bytes that percent escapes at the front name; nothing if one of them is incomplete. -/
def escapedBytes? : List Place → Option (List UInt8)
  | p :: rest =>
    if p.char = '%' then
      match rest with
      | a :: b :: behind => do
        let high ← Text.hexDigit? a.char
        let low ← Text.hexDigit? b.char
        let more ← escapedBytes? behind
        return UInt8.ofNat (high * 16 + low) :: more
      | _ => none
    else some []
  | [] => some []

/-- The text of a tag at the front.  A run of percent escapes has to name whole characters. -/
def tagText? : List Place → Option (List Char × Nat)
  | [] => some ([], 0)
  | p :: rest =>
    if isTagChar p.char then do
      let (more, size) ← tagText? rest
      return (p.char :: more, size + 1)
    else if p.char = '%' then
      match escapedBytes? (p :: rest) with
      | none => none
      | some data => do
        let text ← String.fromUTF8? ⟨data.toArray⟩
        let (more, size) ← tagText? (rest.drop (3 * data.length - 1))
        return (text.toList ++ more, size + 1 + (3 * data.length - 1))
    else some ([], 0)
termination_by places => places.length
decreasing_by
  all_goals simp only [List.length_drop, List.length_cons]
  all_goals omega

/-- The nonempty text of a tag at the front. -/
def nonemptyTagText? (places : List Place) : Option (List Char × Nat) :=
  (tagText? places).filter fun found => found.2 != 0

/-- The tag handle at the front: an exclamation mark, or a name between two of them. -/
def handle? (places : List Place) : Option (List Char × Nat) :=
  if headChar places != '!' then none
  else
    let name := runOf isNameChar (places.drop 1)
    if headChar (places.drop (1 + name.length)) = '!' then
      some ('!' :: name ++ ['!'], name.length + 2)
    else if headChar (places.drop 1) = ' ' then some (['!'], 1)
    else none

/-- May the character stand behind a tag? -/
def endsTag (c : Char) : Bool :=
  c == ' ' || isLineStop c

/-- The tag at the front, without a look at what stands behind it.  A tag in angle brackets is
complete; a tag with a second exclamation mark has a handle of its own. -/
def tagBody? (places : List Place) : Option (WrittenTag × Nat) :=
  let next := headChar (places.drop 1)
  if next = '<' then do
    let (suffix, size) ← nonemptyTagText? (places.drop 2)
    if headChar (places.drop (2 + size)) = '>' then
      return (⟨none, String.ofList suffix⟩, size + 3)
    else none
  else if endsWord next then some (⟨none, "!"⟩, 1)
  else
    let hasHandle := (runOf (fun c => !endsTag c) (places.drop 1)).contains '!'
    let handle : Option (List Char × Nat) := if hasHandle then handle? places else some (['!'], 1)
    do
      let (handle, handleSize) ← handle
      let (suffix, size) ← nonemptyTagText? (places.drop handleSize)
      return (⟨some (String.ofList handle), String.ofList suffix⟩, handleSize + size)

/-- The tag at the front. -/
def tag? (places : List Place) : Option (WrittenTag × Nat) :=
  (tagBody? places).filter fun found => endsTag (headChar (places.drop found.2))

/-! ## Directives -/

/-- The number at the front. -/
def number? (places : List Place) : Option (Nat × Nat) :=
  let ds := runOf Char.isDigit places
  if ds.isEmpty then none
  else some (ds.foldl (fun n d => n * 10 + (d.toNat - 48)) 0, ds.length)

/-- The version at the front: two numbers with a point between them. -/
def version? (places : List Place) : Option (Directive × Nat) := do
  let (major, majorSize) ← number? places
  let behind := places.drop majorSize
  if headChar behind = '.' then
    let (_, minorSize) ← number? (behind.drop 1)
    let size := majorSize + 1 + minorSize
    if endsTag (headChar (places.drop size)) then return (.version major, size) else none
  else none

/-- The declaration of a tag handle at the front. -/
def declaration? (places : List Place) : Option (Directive × Nat) := do
  let (handle, handleSize) ← handle? places
  let behind := places.drop handleSize
  if headChar behind = ' ' then
    let blanks := runLength (· == ' ') behind
    let (start, startSize) ← nonemptyTagText? (behind.drop blanks)
    let size := handleSize + blanks + startSize
    if endsTag (headChar (places.drop size)) then
      return (.handle (String.ofList handle) (String.ofList start), size)
    else none
  else none

/-- The directive whose percent sign has been read, with its length up to the end of its line. -/
def directive? (places : List Place) : Option (Directive × Nat) := do
  let name := runOf isNameChar places
  let behind := places.drop name.length
  if name.isEmpty || !endsTag (headChar behind) then none
  else
    let blanks := runLength (· == ' ') behind
    let (directive, size) ←
      if name = "YAML".toList then
        (version? (behind.drop blanks)).map fun (d, n) => (d, name.length + blanks + n)
      else if name = "TAG".toList then
        (declaration? (behind.drop blanks)).map fun (d, n) => (d, name.length + blanks + n)
      else some (.other, name.length + runLength (fun c => !isLineStop c) behind)
    let rest ← restOfLine? (places.drop size)
    return (directive, size + rest)

end Property

end TypedClient.Yaml

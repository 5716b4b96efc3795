import TypedClient.Text.Base64
import TypedClient.Text.Case
import TypedClient.Value
import TypedClient.Yaml.Node

/-!
# Contents of YAML documents

The value that a node describes, according to its tag.  A map takes over the entries of the maps
that are merged into it; its own entries come after them and win.

Values are built level by level: the contents of a collection are looked at only after everything
that stands at the level of the collection itself.  If a document has several faults, the one
nearest to the root is reported, and of two at one level the first.

* `Yaml.Node.content`: the value of a node.
* `Yaml.read`: the value of a text.
-/

namespace TypedClient.Yaml

/-- A value, or a fault with the level at which it was met. -/
abbrev Leveled (α : Type) := Except (Nat × Fault) α

/-- Two results that do not depend on each other.  Of two faults the one at the lesser level counts,
or else the first. -/
def Leveled.both {α β : Type} : Leveled α → Leveled β → Leveled (α × β)
  | .ok a, .ok b => .ok (a, b)
  | .ok _, .error e => .error e
  | .error e, .ok _ => .error e
  | .error e, .error f => if f.1 < e.1 then .error f else .error e

namespace Node

/-! ## Scalars -/

mutual

/-- The text of a node that is used as a scalar: its own, or for a mapping the one under the key
that stands for the whole. -/
def scalarText? : Node → Option String
  | .scalar _ s => some s
  | .mapping _ entries => standInText? entries
  | .sequence _ _ => none

/-- The text under the key that stands for a whole mapping. -/
def standInText? : List (Node × Node) → Option String
  | [] => none
  | (key, value) :: rest => if key.tag = .standIn then scalarText? value else standInText? rest

end

/-- The truth value for a word in any case. -/
def truthOf (s : String) : Except Fault Value :=
  match Tag.truthWords.lookup (String.ofList (Text.lower s.toList)) with
  | some b => .ok (.bool b)
  | none => .error .unknownWord

/-- The number that a numeral writes. -/
def numberOf {α : Type} (f : α → Value) : Except NumeralFault α → Except Fault Value
  | .ok a => .ok (f a)
  | .error .empty => .error .emptyNumeral
  | .error .invalid => .error .outOfRange

/-- The day or the moment of a timestamp.  A line feed at its end does not count. -/
def timestampOf (s : List Char) : Except Fault Value :=
  let body := if s.getLast? = some '\n' then s.dropLast else s
  match Timestamp.read? body with
  | none => .error .notDate
  | some t =>
    let value? : Option Value := match t.clock with
      | none => t.day?.map .day
      | some clock => (t.moment? clock).map .moment
    match value? with
    | some v => .ok v
    | none => .error .outOfRange

/-- The bytes that a text in base 64 writes. -/
def bytesOf (s : List Char) : Except Fault Value :=
  if s.all fun c => c.toNat < 128 then
    match Text.Base64.decode? s with
    | some data => .ok (.bytes data)
    | none => .error .malformed
  else .error .malformed

/-- The value of a scalar with a tag. -/
def scalarValue (tag : Tag) (s : String) : Except Fault Value :=
  match tag with
  | .null => .ok .null
  | .bool => truthOf s
  | .int => numberOf .int (readInt s.toList)
  | .float => numberOf .float (readFloat (Text.lower s.toList))
  | .timestamp => timestampOf s.toList
  | .binary => bytesOf s.toList
  | .text => .ok (.text s)
  | _ => .error .malformed

/-! ## Merged maps -/

mutual

/-- Can all that is to be merged into the entries be merged?  Only maps and lists of maps can. -/
def canMerge : List (Node × Node) → Bool
  | [] => true
  | (key, value) :: rest => (key.tag != .merge || isMergeable value) && canMerge rest

/-- Can the node be merged into a map? -/
def isMergeable : Node → Bool
  | .scalar _ _ => false
  | .sequence _ items => areMappings items
  | .mapping _ entries => canMerge entries

/-- Are all nodes maps that can be merged into another one? -/
def areMappings : List Node → Bool
  | [] => true
  | .mapping _ entries :: rest => canMerge entries && areMappings rest
  | _ :: _ => false

end

/-! ## Values -/

/-- Does a node with the tag describe a value that other values can be put into?  Such a value
cannot be a key. -/
def isCollectionTag : Tag → Bool
  | .list => true
  | .map => true
  | .set => true
  | .pairs => true
  | _ => false

/-- The tag of a node that stands as a key of a map, where the key for the whole is a plain text. -/
def keyTag (tag : Tag) : Tag :=
  if tag = .standIn then .text else tag

/-- The entries of a map, given those that are merged into it and its own. -/
def joined (merged own : Leveled Entries) : Leveled Entries :=
  (Leveled.both merged own).map fun (found, given) => found ++ given

mutual

/-- The value of a node, taken to have the tag, which stands at a level. -/
def valueAs (level : Nat) (tag : Tag) : Node → Leveled Value
  | .scalar _ s =>
    if isCollectionTag tag then .error (level + 1, .malformed)
    else (scalarValue tag s).mapError fun fault => (level, fault)
  | .sequence _ items =>
    match tag with
    | .list => (valuesOf (level + 1) items).map .list
    | .pairs => (pairsOf (level + 1) items).map .list
    | _ => .error (if isCollectionTag tag then level + 1 else level, .malformed)
  | .mapping _ entries =>
    match tag with
    | .map =>
      if canMerge entries then
        let (merged, own) := entriesOf (level + 1) entries
        (joined merged own).map fun es => .map (Value.entriesOf es)
      else .error (level + 1, .malformed)
    | .set =>
      if canMerge entries then
        let (merged, own) := entriesOf (level + 1) entries
        (joined merged own).map fun es => .set ((Value.entriesOf es).map Prod.fst)
      else .error (level + 1, .malformed)
    | .list => .error (level + 1, .malformed)
    | .pairs => .error (level + 1, .malformed)
    | _ =>
      match standInText? entries with
      | some s => (scalarValue tag s).mapError fun fault => (level, fault)
      | none => .error (level, .malformed)

/-- The values of the items of a list. -/
def valuesOf (level : Nat) : List Node → Leveled (List Value)
  | [] => .ok []
  | item :: rest =>
    (Leveled.both (valueAs level item.tag item) (valuesOf level rest)).map fun (v, vs) => v :: vs

/-- The pairs that a list of maps with single entries describes. -/
def pairsOf (level : Nat) : List Node → Leveled (List Value)
  | [] => .ok []
  | .mapping _ [(key, value)] :: rest =>
    (Leveled.both (Leveled.both (valueAs level key.tag key) (valueAs level value.tag value))
      (pairsOf level rest)).map fun (pair, pairs) => .pair pair.1 pair.2 :: pairs
  | _ :: _ => .error (level, .malformed)

/-- The entries of a map: those that are merged into it and its own, in order. -/
def entriesOf (level : Nat) : List (Node × Node) → Leveled Entries × Leveled Entries
  | [] => (.ok [], .ok [])
  | (key, value) :: rest =>
    let (merged, own) := entriesOf level rest
    if key.tag = .merge then (joined (mergedOf level value) merged, own)
    else
      let tag := keyTag key.tag
      let first : Leveled Entries :=
        if isCollectionTag tag then .error (level, .malformed)
        else (Leveled.both (valueAs level tag key) (valueAs level value.tag value)).map fun e => [e]
      (merged, joined first own)

/-- The entries of a map or of a list of maps that is merged into another map. -/
def mergedOf (level : Nat) : Node → Leveled Entries
  | .scalar _ _ => .error (level, .malformed)
  | .mapping _ entries =>
    let (merged, own) := entriesOf level entries
    joined merged own
  | .sequence _ items => mergedOfAll level items

/-- The entries of the maps of a list, those of the last map first. -/
def mergedOfAll (level : Nat) : List Node → Leveled Entries
  | [] => .ok []
  | item :: rest => joined (mergedOfAll level rest) (mergedOf level item)

end

/-- The value of the root of a document. -/
def content (node : Node) : Except Fault Value :=
  (valueAs 0 node.tag node).mapError Prod.snd

end Node

/-- The value of a text; a text without a document is null. -/
def read (s : String) : Except Fault Value := do
  match ← Node.ofTokens (tokensOf s.toList) with
  | none => return .null
  | some node => node.content

end TypedClient.Yaml

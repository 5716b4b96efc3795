import TypedClient.Yaml.Tag
import TypedClient.Yaml.Token

/-!
# Nodes of YAML documents

The tokens of a text describe one document, which is a tree of nodes.  Every node has a tag; an
alias is replaced by the node to which it refers.

* `Yaml.Node`: the nodes.
* `Yaml.Node.ofTokens`: the node that a sequence of tokens describes, if it describes one.
-/

namespace TypedClient.Yaml

/-- A node of a document. -/
inductive Node where
  | scalar (tag : Tag) (text : String)
  | sequence (tag : Tag) (items : List Node)
  | mapping (tag : Tag) (entries : List (Node × Node))
deriving Repr

/-- The tag of a node. -/
def Node.tag : Node → Tag
  | .scalar tag _ => tag
  | .sequence tag _ => tag
  | .mapping tag _ => tag

/-- What is known while the tokens are read: those that follow, the tag handles, and the anchors
with their nodes.  The node of an anchor is missing as long as it is being read. -/
structure Reading where
  tokens : List Token
  handles : List (String × String)
  anchors : List (String × Option Node)

/-- A reader that takes tokens from the front. -/
abbrev Reader (α : Type) := StateT Reading (Except Fault) α

namespace Reader

/-- The text is malformed here. -/
def refuse {α : Type} : Reader α := throw .malformed

/-- The next token; a fault among the tokens is met here. -/
def peek : Reader Token := do
  match (← get).tokens with
  | [] => refuse
  | .fault fault :: _ => throw fault
  | t :: _ => return t

/-- Takes the next token. -/
def skip : Reader Unit :=
  modify fun r => { r with tokens := r.tokens.tail }

/-- Takes the next token if it is the given one. -/
def take? (t : Token) : Reader Bool := do
  if (← peek) = t then
    skip
    return true
  else return false

/-- Is the next token one of these? -/
def isNext (ts : List Token) : Reader Bool := do
  return ts.contains (← peek)

/-- An empty plain scalar, which is null. -/
def empty : Node := .scalar .null ""

/-! ## Anchors and tags -/

/-- An anchor, if one comes next. -/
def anchor? : Reader (Option String) := do
  match ← peek with
  | .anchor name =>
    skip
    return some name
  | _ => return none

/-- A written tag, if one comes next. -/
def writtenTag? : Reader (Option WrittenTag) := do
  match ← peek with
  | .tag t =>
    skip
    return some t
  | _ => return none

/-- The complete text of a tag, its handle replaced by what the handle stands for. -/
def completeTag (t : WrittenTag) : Reader String := do
  match t.handle with
  | none => return t.suffix
  | some handle =>
    match (← get).handles.lookup handle with
    | some start => return start ++ t.suffix
    | none => refuse

/-- Anchor and tag of a node, in either order. -/
def properties : Reader (Option String × Option String) := do
  match ← anchor? with
  | some name =>
    let tag ← writtenTag?
    return (some name, ← tag.mapM completeTag)
  | none =>
    match ← writtenTag? with
    | some tag =>
      let anchor ← anchor?
      return (anchor, some (← completeTag tag))
    | none => return (none, none)

/-- The tag of a node, given the one that it has without a written tag; a lone exclamation mark
counts as none. -/
def tagOr (implicit : Tag) : Option String → Tag
  | none => implicit
  | some tag => if tag = "!" then implicit else Tag.ofText tag

/-- Starts a node with an anchor, which no other node of the document may have. -/
def openAnchor (anchor : Option String) : Reader Unit := do
  match anchor with
  | none => return
  | some name =>
    if ((← get).anchors.lookup name).isSome then refuse
    else modify fun r => { r with anchors := (name, none) :: r.anchors }

/-- Ends a node, which its anchor stands for from now on. -/
def closeAnchor (anchor : Option String) (node : Node) : Reader Node := do
  match anchor with
  | none => return node
  | some name =>
    modify fun r => { r with anchors := (name, some node) :: r.anchors }
    return node

/-- The node to which an alias refers.  A node cannot hold itself. -/
def aliased (name : String) : Reader Node := do
  match (← get).anchors.lookup name with
  | some (some node) => return node
  | _ => refuse

/-- A scalar with its anchor and its tag. -/
def scalar (anchor : Option String) (tag : Tag) (text : String) : Reader Node := do
  openAnchor anchor
  closeAnchor anchor (.scalar tag text)

/-! ## Nodes -/

/-- Where a node stands: it decides which collections may start there. -/
inductive Position where
  /-- Inside a flow collection. -/
  | flow
  /-- In a block collection or at the root. -/
  | block
  /-- The key or the value of a block mapping, where a sequence needs no deeper indentation. -/
  | entry
deriving DecidableEq

/-- What ends an empty entry of a block mapping. -/
def entryEnds : List Token := [.key, .colon, .blockEnd]

/-- A node without contents: an empty scalar if it has an anchor or a tag, else nothing at all. -/
def absent (anchor tag : Option String) : Reader Node := do
  if anchor.isNone && tag.isNone then refuse else scalar anchor (tagOr .null tag) ""

mutual

/-- The node that starts at the next token. -/
def node (fuel : Nat) (position : Position) : Reader Node := do
  match fuel with
  | 0 => refuse
  | fuel + 1 =>
    match ← peek with
    | .alias name =>
      skip
      aliased name
    | _ =>
      let (anchor, tag) ← properties
      match ← peek with
      | .dash =>
        if position = .entry then
          openAnchor anchor
          closeAnchor anchor (.sequence (tagOr .list tag) (← indentlessItems fuel))
        else absent anchor tag
      | .scalar text isPlain =>
        skip
        let isUntagged := isPlain && tag.isNone || tag == some "!"
        scalar anchor (tagOr (if isUntagged then .ofPlain text else .text) tag) text
      | .flowSequenceStart =>
        skip
        openAnchor anchor
        closeAnchor anchor (.sequence (tagOr .list tag) (← flowItems fuel true))
      | .flowMappingStart =>
        skip
        openAnchor anchor
        closeAnchor anchor (.mapping (tagOr .map tag) (← flowEntries fuel true))
      | .blockSequenceStart =>
        if position = .flow then absent anchor tag
        else
          skip
          openAnchor anchor
          closeAnchor anchor (.sequence (tagOr .list tag) (← blockItems fuel))
      | .blockMappingStart =>
        if position = .flow then absent anchor tag
        else
          skip
          openAnchor anchor
          closeAnchor anchor (.mapping (tagOr .map tag) (← blockEntries fuel))
      | _ => absent anchor tag

/-- The items of a block sequence, up to its end. -/
def blockItems (fuel : Nat) : Reader (List Node) := do
  match fuel with
  | 0 => refuse
  | fuel + 1 =>
    if ← take? .dash then
      let item ← if ← isNext [.dash, .blockEnd] then pure empty else node fuel .block
      return item :: (← blockItems fuel)
    else if ← take? .blockEnd then return []
    else refuse

/-- The items of a sequence that is indented no deeper than the mapping around it. -/
def indentlessItems (fuel : Nat) : Reader (List Node) := do
  match fuel with
  | 0 => refuse
  | fuel + 1 =>
    if ← take? .dash then
      let item ← if ← isNext (.dash :: entryEnds) then pure empty else node fuel .block
      return item :: (← indentlessItems fuel)
    else return []

/-- The entries of a block mapping, up to its end. -/
def blockEntries (fuel : Nat) : Reader (List (Node × Node)) := do
  match fuel with
  | 0 => refuse
  | fuel + 1 =>
    if ← take? .key then
      let key ← if ← isNext entryEnds then pure empty else node fuel .entry
      let value ←
        if ← take? .colon then
          if ← isNext entryEnds then pure empty else node fuel .entry
        else pure empty
      return (key, value) :: (← blockEntries fuel)
    else if ← take? .blockEnd then return []
    else refuse

/-- The items of a flow sequence, up to its end.  A key in front of an item makes it a mapping with
one entry. -/
def flowItems (fuel : Nat) (isFirst : Bool) : Reader (List Node) := do
  match fuel with
  | 0 => refuse
  | fuel + 1 =>
    if ← take? .flowSequenceEnd then return []
    else
      if !isFirst then
        if !(← take? .comma) then refuse
      if ← take? .key then
        let key ←
          if ← isNext [.colon, .comma, .flowSequenceEnd] then pure empty else node fuel .flow
        let value ←
          if ← take? .colon then
            if ← isNext [.comma, .flowSequenceEnd] then pure empty else node fuel .flow
          else pure empty
        return .mapping .map [(key, value)] :: (← flowItems fuel false)
      else if ← take? .flowSequenceEnd then return []
      else
        let item ← node fuel .flow
        return item :: (← flowItems fuel false)

/-- The entries of a flow mapping, up to its end.  An item without a key in front of it is a key
with an empty value. -/
def flowEntries (fuel : Nat) (isFirst : Bool) : Reader (List (Node × Node)) := do
  match fuel with
  | 0 => refuse
  | fuel + 1 =>
    if ← take? .flowMappingEnd then return []
    else
      if !isFirst then
        if !(← take? .comma) then refuse
      if ← take? .key then
        let key ←
          if ← isNext [.colon, .comma, .flowMappingEnd] then pure empty else node fuel .flow
        let value ←
          if ← take? .colon then
            if ← isNext [.comma, .flowMappingEnd] then pure empty else node fuel .flow
          else pure empty
        return (key, value) :: (← flowEntries fuel false)
      else if ← take? .flowMappingEnd then return []
      else
        let key ← node fuel .flow
        return (key, empty) :: (← flowEntries fuel false)

end

/-! ## Documents -/

/-- The handles that every document has. -/
def standardHandles : List (String × String) := [("!", "!"), ("!!", Tag.namespaceStart)]

/-- The directives in front of a document: the handles they declare.  The version may be given once
and has to start with one, a handle may be declared once. -/
def directives (fuel : Nat) (hasVersion : Bool) (handles : List (String × String)) :
    Reader (List (String × String)) := do
  match fuel with
  | 0 => refuse
  | fuel + 1 =>
    match ← peek with
    | .directive d =>
      skip
      match d with
      | .version major => if hasVersion || major != 1 then refuse else directives fuel true handles
      | .handle name start =>
        if (handles.lookup name).isSome then refuse
        else directives fuel hasVersion ((name, start) :: handles)
      | .other => directives fuel hasVersion handles
    | _ => return handles

/-- The start of a document behind its directives. -/
def explicitStart (fuel : Nat) : Reader Unit := do
  let handles ← directives fuel false []
  if ← take? .documentStart then
    modify fun r => { r with handles := handles ++ standardHandles }
  else refuse

/-- The marks that end documents. -/
def documentEnds (fuel : Nat) : Reader Unit := do
  match fuel with
  | 0 => return
  | fuel + 1 => if ← take? .documentEnd then documentEnds fuel

/-- The root node of a text that holds one document, or nothing if it holds none. -/
def root (fuel : Nat) : Reader (Option Node) := do
  if ← isNext [.finish] then return none
  let first ← peek
  let isExplicit := match first with
    | .directive _ => true
    | .documentStart => true
    | _ => false
  let node ←
    if isExplicit then
      explicitStart fuel
      let next ← peek
      let isEmpty := match next with
        | .directive _ => true
        | .documentStart => true
        | .documentEnd => true
        | .finish => true
        | _ => false
      if isEmpty then pure empty else node fuel .block
    else node fuel .block
  documentEnds fuel
  if ← isNext [.finish] then return some node
  else
    explicitStart fuel
    refuse

end Reader

/-- The root node that a sequence of tokens describes, or nothing if it describes no document.  No
node lies deeper than there are tokens, and reading goes at most one step further at each. -/
def Node.ofTokens (tokens : List Token) : Except Fault (Option Node) :=
  let start : Reading := ⟨tokens, Reader.standardHandles, []⟩
  ((Reader.root (2 * tokens.length + 2)).run start).map Prod.fst

end TypedClient.Yaml

import Harvest.Yaml.Stream
import Harvest.Yaml.Tag

/-
  Nodes of a YAML document, and how tokens make them.

  An alias becomes the node of its anchor. Where it stands inside the very node it names, that node is written out once
  more; an alias in there is kept as `inside`, since no finite tree holds itself.

    1. `Node.fill` puts a node where an alias of it stands.
    2. `Node.compose` and the readers beside it follow the grammar, each up to a depth.
    3. `Node.ofTokens` gives the one document of a text, or nothing if it has none.
-/
namespace Harvest.Yaml

/-- A node of a document. -/
inductive Node where
  | scalar (tag : Tag) (text : String)
  | sequence (tag : Tag) (items : List Node)
  | mapping (tag : Tag) (entries : List (Node × Node))
  /-- An alias inside the node of its anchor: a sequence or a mapping. -/
  | inside (anchor : String) (isMapping : Bool)
  deriving Inhabited

namespace Node

/-- Absence, where a node is left out. -/
def empty : Node := .scalar .null ""

mutual

/-- A node with another one in place of the aliases inside the node of an anchor. -/
def fill (a : String) (whole : Node) : Node → Node
  | scalar t s => scalar t s
  | sequence t is => sequence t (fillItems a whole is)
  | mapping t es => mapping t (fillEntries a whole es)
  | inside b isMapping => if a == b then whole else inside b isMapping

/-- The same of the items of a sequence. -/
def fillItems (a : String) (whole : Node) : List Node → List Node
  | [] => []
  | n :: ns => fill a whole n :: fillItems a whole ns

/-- The same of the entries of a mapping. -/
def fillEntries (a : String) (whole : Node) : List (Node × Node) → List (Node × Node)
  | [] => []
  | (k, v) :: es => (fill a whole k, fill a whole v) :: fillEntries a whole es

end

/-- What is left to read, and the nodes of the anchors met. -/
structure Rest where
  tokens : List Token
  anchors : List (String × Node) := []

/-- Reading nodes. -/
abbrev Work := StateT Rest (Except Fault)

/-- The next token. -/
def peek : Work Token := do
  match (← get).tokens with
  | [] => return .finish
  | .broken f :: _ => throw f
  | t :: _ => return t

/-- Leaves the next token behind. -/
def advance : Work Unit := modify fun r => { r with tokens := r.tokens.tail }

/-- What the handles of tags stand for. -/
abbrev Handles := List (String × String)

/-- The handles that every document has. -/
def standardHandles : Handles := [("!", "!"), ("!!", Tag.stem)]

/-! ## Anchors and tags -/

/-- What stands in front of a node. A tag is `none` if there is none, and `some none` if it leaves the kind open. -/
structure Properties where
  anchor : Option String := none
  tag : Option (Option Tag) := none

/-- The tag of a handle and a suffix. -/
def resolve (handles : Handles) : Option String → String → Work (Option Tag)
  | none, suffix => return if suffix == "!" then none else some (Tag.ofName suffix)
  | some h, suffix =>
    match handles.lookup h with
    | none => throw .order
    | some stem => return some (Tag.ofName (stem ++ suffix))

/-- The handle and the suffix of a tag, if one is next. -/
def tagNext? : Work (Option (Option String × String)) := do
  match ← peek with
  | .tag h suffix =>
    advance
    return some (h, suffix)
  | _ => return none

/-- An anchor, if one is next. -/
def anchorNext? : Work (Option String) := do
  match ← peek with
  | .anchor a =>
    advance
    return some a
  | _ => return none

/-- The anchor and the tag in front of a node, in either order. -/
def propertyTexts : Work (Option String × Option (Option String × String)) := do
  match ← anchorNext? with
  | some a => return (some a, ← tagNext?)
  | none =>
    match ← tagNext? with
    | none => return (none, none)
    | some t => return (← anchorNext?, some t)

/-- The properties in front of a node. -/
def properties (handles : Handles) : Work Properties := do
  match ← propertyTexts with
  | (anchor, none) => return { anchor }
  | (anchor, some (h, suffix)) => return { anchor, tag := some (← resolve handles h suffix) }

/-- Notes an anchor, which may not have been given before. -/
def note (anchor : Option String) (n : Node) : Work Unit := do
  match anchor with
  | none => return
  | some a =>
    if ((← get).anchors.lookup a).isSome then throw .reference
    modify fun r => { r with anchors := (a, n) :: r.anchors }

/-- Puts the finished node under its anchor, and under the anchors inside it. -/
def close (a : String) (parts : Node) : Work Node := do
  let n := fill a parts parts
  modify fun r => { r with anchors := r.anchors.map fun (b, m) => (b, if a == b then n else fill a parts m) }
  return n

/-- The node of an alias. -/
def ofAlias (a : String) : Work Node := do
  match (← get).anchors.lookup a with
  | some n => return n
  | none => throw .reference

/-- The tag of a scalar. Without one, or with one that leaves the kind open, a plain scalar goes by its text. -/
def scalarTag (isPlain : Bool) (text : String) : Option (Option Tag) → Tag
  | none => if isPlain then Tag.ofPlain text else .str
  | some none => Tag.ofPlain text
  | some (some t) => t

/-- The tag of a collection. -/
def collectionTag (standard : Tag) (given : Option (Option Tag)) : Tag := (given.getD none).getD standard

/-- A scalar with its properties. -/
def ofScalar (ps : Properties) (isPlain : Bool) (text : String) : Work Node := do
  let n := Node.scalar (scalarTag isPlain text ps.tag) text
  note ps.anchor n
  return n

/-! ## The grammar -/

/-- Where a node stands, which says what it can be. -/
inductive Position where
  | inFlow
  | inBlock
  /-- Below a key, where the items of a sequence need not be indented. -/
  | belowKey
  deriving DecidableEq

/-- Whether a token is one of some. -/
def isOneOf (ts : List Token) : Work Bool := do return ts.contains (← peek)

/-- A node unless one of some tokens is next, which leave it out. -/
def orEmpty (ts : List Token) (node : Work Node) : Work Node := do
  if ← isOneOf ts then return empty else node

/-- A collection: its anchor is noted, then its parts are read. -/
def collect (ps : Properties) (isMapping : Bool) (parts : Work Node) : Work Node := do
  match ps.anchor with
  | none => parts
  | some a =>
    note ps.anchor (.inside a isMapping)
    close a (← parts)

mutual

/-- A node. -/
def compose (handles : Handles) : Nat → Position → Work Node
  | 0, _ => throw .order
  | n + 1, position => do
    if let .alias a ← peek then
      advance
      return ← ofAlias a
    let ps ← properties handles
    let sequenceTag := collectionTag .seq ps.tag
    let mappingTag := collectionTag .map ps.tag
    match ← peek with
    | .blockEntry =>
      if position == .belowKey then
        collect ps false (return .sequence sequenceTag (← looseItems handles n))
      else if ps.anchor.isSome || ps.tag.isSome then ofScalar ps true ""
      else throw .order
    | .scalar isPlain text =>
      advance
      ofScalar ps isPlain text
    | .flowSequenceStart =>
      collect ps false do
        advance
        return .sequence sequenceTag (← flowItems handles n true)
    | .flowMappingStart =>
      collect ps true do
        advance
        return .mapping mappingTag (← flowEntries handles n true)
    | t =>
      if t == .blockSequenceStart && position != .inFlow then
        collect ps false do
          advance
          return .sequence sequenceTag (← blockItems handles n)
      else if t == .blockMappingStart && position != .inFlow then
        collect ps true do
          advance
          return .mapping mappingTag (← blockEntries handles n)
      else if ps.anchor.isSome || ps.tag.isSome then ofScalar ps true ""
      else throw .order

/-- The items of an indented sequence. -/
def blockItems (handles : Handles) : Nat → Work (List Node)
  | 0 => throw .order
  | n + 1 => do
    match ← peek with
    | .blockEntry =>
      advance
      let i ← orEmpty [.blockEntry, .blockEnd] (compose handles n .inBlock)
      return i :: (← blockItems handles n)
    | .blockEnd =>
      advance
      return []
    | _ => throw .order

/-- The items of a sequence that is not indented. -/
def looseItems (handles : Handles) : Nat → Work (List Node)
  | 0 => throw .order
  | n + 1 => do
    match ← peek with
    | .blockEntry =>
      advance
      let i ← orEmpty [.blockEntry, .key, .value, .blockEnd] (compose handles n .inBlock)
      return i :: (← looseItems handles n)
    | _ => return []

/-- The entries of an indented mapping. -/
def blockEntries (handles : Handles) : Nat → Work (List (Node × Node))
  | 0 => throw .order
  | n + 1 => do
    match ← peek with
    | .key =>
      advance
      let k ← orEmpty [.key, .value, .blockEnd] (compose handles n .belowKey)
      let v ← valuePart handles n .belowKey [.key, .value, .blockEnd]
      return (k, v) :: (← blockEntries handles n)
    | .blockEnd =>
      advance
      return []
    | _ => throw .order

/-- The value behind a colon; without a colon it is left out. -/
def valuePart (handles : Handles) : Nat → Position → List Token → Work Node
  | 0, _, _ => throw .order
  | n + 1, position, ends => do
    match ← peek with
    | .value =>
      advance
      orEmpty ends (compose handles n position)
    | _ => return empty

/-- The items of a sequence in brackets. A key alone is a mapping of one entry. -/
def flowItems (handles : Handles) : Nat → Bool → Work (List Node)
  | 0, _ => throw .order
  | n + 1, first => do
    if (← peek) == .flowSequenceEnd then
      advance
      return []
    if !first then
      if (← peek) == .flowEntry then advance else throw .order
    match ← peek with
    | .flowSequenceEnd =>
      advance
      return []
    | .key =>
      advance
      let k ← orEmpty [.value, .flowEntry, .flowSequenceEnd] (compose handles n .inFlow)
      let v ← valuePart handles n .inFlow [.flowEntry, .flowSequenceEnd]
      return .mapping .map [(k, v)] :: (← flowItems handles n false)
    | _ =>
      let i ← compose handles n .inFlow
      return i :: (← flowItems handles n false)

/-- The entries of a mapping in braces. A node without a question mark or a colon is a key without value. -/
def flowEntries (handles : Handles) : Nat → Bool → Work (List (Node × Node))
  | 0, _ => throw .order
  | n + 1, first => do
    if (← peek) == .flowMappingEnd then
      advance
      return []
    if !first then
      if (← peek) == .flowEntry then advance else throw .order
    match ← peek with
    | .flowMappingEnd =>
      advance
      return []
    | .key =>
      advance
      let k ← orEmpty [.value, .flowEntry, .flowMappingEnd] (compose handles n .inFlow)
      let v ← valuePart handles n .inFlow [.flowEntry, .flowMappingEnd]
      return (k, v) :: (← flowEntries handles n false)
    | _ =>
      let k ← compose handles n .inFlow
      return (k, empty) :: (← flowEntries handles n false)

end

/-! ## Documents -/

/-- The directives in front of a document: the handles they give, and whether they give a version. -/
def directives : Nat → Bool → Handles → Work Handles
  | 0, _, hs => return hs
  | n + 1, versioned, hs => do
    match ← peek with
    | .directive d =>
      advance
      match d with
      | .version major =>
        if versioned || major != 1 then throw .order
        directives n true hs
      | .tag h stem =>
        if (hs.lookup h).isSome then throw .order
        directives n versioned ((h, stem) :: hs)
      | .other => directives n versioned hs
    | _ => return hs

/-- Leaves the marks behind documents behind. -/
def skipEnds : Nat → Work Unit
  | 0 => return
  | n + 1 => do
    if (← peek) == .documentEnd then
      advance
      skipEnds n

/-- The start of a document with its handles; none at the end. -/
def start? (bound : Nat) : Work (Option Handles) := do
  skipEnds bound
  if (← peek) == .finish then return none
  let hs ← directives bound false []
  if (← peek) != .documentStart then throw .order
  advance
  return some (hs ++ standardHandles)

/-- The node of a document that begins with a mark. -/
def explicit (bound : Nat) (handles : Handles) : Work Node := do
  match ← peek with
  | .directive _ | .documentStart | .documentEnd | .finish => return empty
  | _ => compose handles bound .inBlock

/-- The node of the first document, if there is one. -/
def first? (bound : Nat) : Work (Option Node) := do
  match ← peek with
  | .directive _ | .documentStart | .finish =>
    match ← start? bound with
    | none => return none
    | some hs => return some (← explicit bound hs)
  | _ => return some (← compose standardHandles bound .inBlock)

/-- The node of the only document, if there is one. -/
def only? (bound : Nat) : Work (Option Node) := do
  let n ← first? bound
  if n.isSome && (← start? bound).isSome then throw .reference
  return n

/-- The node of the one document that tokens make. -/
def ofTokens (ts : List Token) : Except Fault (Option Node) :=
  ((only? (2 * ts.length + 2)).run { tokens := ts }).map (·.1)

end Node
end Harvest.Yaml

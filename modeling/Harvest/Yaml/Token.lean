import Harvest.Yaml.Scalar

/-
  Tokens of YAML, and how directives, anchors and tags are written.
-/
namespace Harvest.Yaml
open Source

/-- A line in front of a document. -/
inductive Directive where
  | version (major : Nat)
  | tag (handle stem : String)
  | other
  deriving DecidableEq, Repr

/-- A token. The last one of a document is `finish`, or `broken` if the text goes wrong there. -/
inductive Token where
  | directive (d : Directive)
  | documentStart
  | documentEnd
  | blockSequenceStart
  | blockMappingStart
  | blockEnd
  | flowSequenceStart
  | flowSequenceEnd
  | flowMappingStart
  | flowMappingEnd
  | flowEntry
  | blockEntry
  | key
  | value
  | alias (name : String)
  | anchor (name : String)
  | tag (handle : Option String) (suffix : String)
  | scalar (isPlain : Bool) (text : String)
  | finish
  | broken (fault : Fault)
  deriving DecidableEq, Repr

/-! ## Names and tags -/

/-- A name of at least one character. -/
def name (s : Source) : Read String :=
  match s.run isName with
  | [] => .error .token
  | cs => .ok (String.ofList cs, s.skip isName)

/-- Whether a character can follow the name of an anchor. -/
def endsAnchor (c : Char) : Bool := isGap c || "?:,]\x7d%@\x60".contains c

/-- The name of an anchor or an alias, from its sign on. -/
def anchorName (s : Source) : Read String :=
  match name s.tail with
  | .error f => .error f
  | .ok (n, r) => if endsAnchor r.peek then .ok (n, r) else .error .token

/-- A handle of tags: an exclamation mark, or a name between two of them. -/
def tagHandle (s : Source) : Read String :=
  if s.peek != '!' then .error .token
  else if s.peekNext == ' ' then .ok ("!", s.tail)
  else
    let r := skip isName s.tail
    if r.peek == '!' then .ok (String.ofList ('!' :: (run isName s.tail ++ ['!'])), r.tail) else .error .token

/-- A character of a tag. -/
def isTagChar (c : Char) : Bool := isName c || ";/?:@&=+$,.!~*'()[]%".contains c

/-- Bytes written as percent signs with two hexadecimal digits each. -/
def tagBytes : Source → Read (List UInt8)
  | p :: a :: b :: s =>
    if p.char == '%' then
      match hexDigit? a.char, hexDigit? b.char with
      | some x, some y => (tagBytes s).map fun (bs, r) => (UInt8.ofNat (16 * x + y) :: bs, r)
      | _, _ => .error .token
    else .ok ([], p :: a :: b :: s)
  | s => if s.peek == '%' then .error .token else .ok ([], s)

/-- The text of a tag; the first argument bounds its length. -/
def tagFrom : Nat → Source → Read (List Char)
  | 0, s => .ok ([], s)
  | n + 1, s =>
    if s.peek == '%' then
      match tagBytes s with
      | .error f => .error f
      | .ok (bs, r) =>
        match String.fromUTF8? ⟨bs.toArray⟩ with
        | none => .error .token
        | some t => (tagFrom n r).map fun (cs, r) => (t.toList ++ cs, r)
    else if isTagChar s.peek then (tagFrom n s.tail).map fun (cs, r) => (s.peek :: cs, r)
    else .ok ([], s)

/-- The text of a tag, which is not empty. -/
def tagText (s : Source) : Read String :=
  if isTagChar s.peek then (tagFrom s.length s).map fun (cs, r) => (String.ofList cs, r) else .error .token

/-- Whether a handle with a name stands in front: a second exclamation mark comes before the next space. -/
def hasHandle (s : Source) : Bool := (skip (fun c => c != '!' && !isSpaceOrStop c) s).peek == '!'

/-- A tag, from its exclamation mark on. -/
def tag (s : Source) : Except Fault (Token × Source) := do
  let (t, r) ←
    if s.peekNext == '<' then do
      let (suffix, r) ← tagText (s.drop 2)
      if peek r == '>' then pure (Token.tag none suffix, r.tail) else throw .token
    else if isGap s.peekNext then pure (.tag none "!", s.tail)
    else if hasHandle s.tail then do
      let (h, r) ← tagHandle s
      let (suffix, r) ← tagText r
      pure (.tag (some h) suffix, r)
    else do
      let (suffix, r) ← tagText s.tail
      pure (.tag (some "!") suffix, r)
  if isSpaceOrStop (peek r) then return (t, r) else throw .token

/-! ## Directives -/

/-- A number of a version. -/
def versionNumber (s : Source) : Read Nat :=
  match s.run Char.isDigit with
  | [] => .error .token
  | ds =>
    if Numeral.maxDigits < ds.length then .error (.scalar (.tooLong ds.length))
    else .ok (ds.foldl (fun n c => 10 * n + (c.toNat - 48)) 0, s.skip Char.isDigit)

/-- A version: two numbers with a point between them. -/
def version (s : Source) : Except Fault (Directive × Source) := do
  let (major, r) ← versionNumber s.skipSpaces
  if r.peek != '.' then throw .token
  let (_, r) ← versionNumber r.tail
  if isSpaceOrStop r.peek then return (.version major, r) else throw .token

/-- A handle of tags and what it stands for. -/
def tagDirective (s : Source) : Except Fault (Directive × Source) := do
  let (handle, r) ← tagHandle s.skipSpaces
  if r.peek != ' ' then throw .token
  let (stem, r) ← tagText r.skipSpaces
  if isSpaceOrStop r.peek then return (.tag handle stem, r) else throw .token

/-- A directive, from its percent sign on, with the rest of its line. -/
def directive (s : Source) : Except Fault (Token × Source) := do
  let (n, r) ← name s.tail
  if !isSpaceOrStop r.peek then throw .token
  let (d, r) ←
    if n == "YAML" then version r
    else if n == "TAG" then tagDirective r
    else pure (.other, r.skip (!isStop ·))
  let ((), r) ← endOfLine r
  return (.directive d, r)

end Harvest.Yaml

import Harvest.Yaml.Token

/-
  The tokens of a YAML document.

  A key of a mapping is known for one only at the colon behind it, which has to come on the same line and within 1024
  characters. So `Progress` keeps the places where a key may have begun, one for every level of flow collections, and
  the colon puts its tokens there. In front of a fault, only those tokens are let out that no colon can come before.

    1. `Progress.step` reads one token, with the tokens that open and close block collections around it.
    2. `Token.ofText` lists the tokens of a text. The last one is `finish` or `broken`.
-/
namespace Harvest.Yaml
open Source

/-- A place where a key may have begun. -/
structure KeyPlace where
  flow : Nat
  /-- How many tokens come before. -/
  number : Nat
  /-- Whether nothing but a key can stand here. -/
  required : Bool
  spot : Spot

/-- How far a text is read. The tokens stand in reverse order. -/
structure Progress where
  source : Source
  tokens : List Token := []
  flow : Nat := 0
  indent : Int := -1
  outer : List Int := []
  keyAllowed : Bool := true
  keys : List KeyPlace := []

namespace Progress

/-- The next token. -/
def push (p : Progress) (t : Token) : Progress := { p with tokens := t :: p.tokens }

/-- Tokens put behind the first `number` ones. -/
def insert (p : Progress) (number : Nat) (ts : List Token) : Progress :=
  let later := p.tokens.length - number
  { p with tokens := p.tokens.take later ++ ts.reverse ++ p.tokens.drop later }

/-- A token made of the next characters. -/
def take (p : Progress) (width : Nat) (t : Token) : Progress := { p.push t with source := p.source.drop width }

/-- A token with what follows it. -/
def took (p : Progress) (t : Token) (rest : Source) : Progress := { p.push t with source := rest }

/-! ## Keys -/

/-- Whether a key that began at a place can still end here. -/
def isLive (p : Progress) (k : KeyPlace) : Bool :=
  k.spot.line == p.source.line && p.source.index - k.spot.index ≤ 1024

/-- Without the places whose key would end too late. -/
def dropStale (p : Progress) : Except Fault Progress :=
  if p.keys.any fun k => k.required && !p.isLive k then .error .token
  else .ok { p with keys := p.keys.filter p.isLive }

/-- Without the place of this level. -/
def dropKey (p : Progress) : Except Fault Progress :=
  if p.keys.any fun k => k.flow == p.flow && k.required then .error .token
  else .ok { p with keys := p.keys.filter fun k => k.flow != p.flow }

/-- With this place, if a key may begin here. -/
def saveKey (p : Progress) : Except Fault Progress :=
  if !p.keyAllowed then .ok p else do
    let p ← p.dropKey
    match p.source with
    | [] => return p
    | spot :: _ =>
      let required := p.flow == 0 && p.indent == (spot.column : Int)
      return { p with keys := ⟨p.flow, p.tokens.length, required, spot⟩ :: p.keys }

/-- The tokens that no colon can come before. -/
def released (p : Progress) : List Token :=
  let first := p.keys.foldl (fun n k => min n k.number) p.tokens.length
  p.tokens.reverse.take first

/-! ## Indentation -/

/-- The indentations around that are greater than a column are left; each gives a token. -/
def leave (column : Int) : Int → List Int → List Token → Int × List Int × List Token
  | indent, [], ts => (indent, [], ts)
  | indent, o :: os, ts => if column < indent then leave column o os (.blockEnd :: ts) else (indent, o :: os, ts)

/-- The block collections that end at a column are closed. -/
def unwind (p : Progress) (column : Int) : Progress :=
  if p.flow != 0 then p else
  let (indent, outer, tokens) := leave column p.indent p.outer p.tokens
  { p with indent, outer, tokens }

/-- Whether a block collection begins at a column. -/
def opensAt (p : Progress) (column : Nat) : Bool := p.flow == 0 && p.indent < (column : Int)

/-- A block collection begun at a column. -/
def indentTo (p : Progress) (column : Nat) : Progress :=
  { p with indent := (column : Int), outer := p.indent :: p.outer }

/-- The token that begins a block collection here, if one begins. -/
def opened (p : Progress) (t : Token) : Progress :=
  if p.opensAt p.source.column then (p.indentTo p.source.column).push t else p

/-! ## Single tokens -/

/-- The end of the text. -/
def finish (p : Progress) : Except Fault Progress := do
  let p ← (p.unwind (-1)).dropKey
  return { p.push .finish with keys := [] }

/-- A directive. -/
def directive (p : Progress) : Except Fault Progress := do
  let p ← (p.unwind (-1)).dropKey
  let (t, r) ← Yaml.directive p.source
  return { p.took t r with keyAllowed := false }

/-- A mark between documents. -/
def documentMark (p : Progress) (t : Token) : Except Fault Progress := do
  let p ← (p.unwind (-1)).dropKey
  return { p.take 3 t with keyAllowed := false }

/-- The beginning of a flow collection. -/
def flowStart (p : Progress) (t : Token) : Except Fault Progress := do
  let p ← p.saveKey
  return { p.take 1 t with flow := p.flow + 1, keyAllowed := true }

/-- The end of a flow collection. -/
def flowEnd (p : Progress) (t : Token) : Except Fault Progress := do
  let p ← p.dropKey
  return { p.take 1 t with flow := p.flow - 1, keyAllowed := false }

/-- A comma of a flow collection. -/
def flowEntry (p : Progress) : Except Fault Progress := do
  let p ← p.dropKey
  return { p.take 1 .flowEntry with keyAllowed := true }

/-- The hyphen of an item. -/
def blockEntry (p : Progress) : Except Fault Progress := do
  if p.flow == 0 && !p.keyAllowed then throw .token
  let p ← (p.opened .blockSequenceStart).dropKey
  return { p.take 1 .blockEntry with keyAllowed := true }

/-- The question mark of a key. -/
def keyMark (p : Progress) : Except Fault Progress := do
  if p.flow == 0 && !p.keyAllowed then throw .token
  let p ← (p.opened .blockMappingStart).dropKey
  return { p.take 1 .key with keyAllowed := p.flow == 0 }

/-- The colon of a value. Where a key may have begun, it did. -/
def valueMark (p : Progress) : Except Fault Progress := do
  match p.keys.find? (·.flow == p.flow) with
  | some k =>
    let p := { p with keys := p.keys.filter fun l => l.flow != p.flow }
    let p := if p.opensAt k.spot.column then (p.indentTo k.spot.column).insert k.number [.blockMappingStart, .key]
      else p.insert k.number [.key]
    return { p.take 1 .value with keyAllowed := false }
  | none =>
    if p.flow == 0 && !p.keyAllowed then throw .token
    let p ← (p.opened .blockMappingStart).dropKey
    return { p.take 1 .value with keyAllowed := p.flow == 0 }

/-- A token that can begin a key. -/
def content (p : Progress) (read : Source → Read Token) : Except Fault Progress := do
  let p ← p.saveKey
  let (t, r) ← read p.source
  return { p.took t r with keyAllowed := false }

/-- A block scalar. -/
def blockScalar (p : Progress) (folded : Bool) : Except Fault Progress := do
  let p ← p.dropKey
  let (text, r) ← block folded p.indent p.source
  return { p.took (.scalar false (String.ofList text)) r with keyAllowed := true }

/-- A plain scalar. -/
def plainScalar (p : Progress) : Except Fault Progress := do
  let p ← p.saveKey
  let (text, ended, r) := plain (p.flow != 0) (p.indent + 1) p.source
  return { p.took (.scalar true (String.ofList text)) r with keyAllowed := ended }

/-- A scalar in quotes. -/
def quotedToken (double : Bool) (s : Source) : Read Token :=
  (quoted double s).map fun (cs, r) => (.scalar false (String.ofList cs), r)

/-! ## All tokens -/

/-- The source from the next token on, with the blanks and comments before it left out, and whether a line ended among
them. -/
def toToken (inComment : Bool) : Source → Bool × Source
  | [] => (false, [])
  | c :: s =>
    if isBreak c.char then (true, (toToken false s).2)
    else if c.char == endMark then (false, c :: s)
    else if inComment || c.char == ' ' then toToken inComment s
    else if c.char == '#' then toToken true s
    else (false, c :: s)

/-- At the next token. A byte order mark may stand in front of everything. -/
def advance (p : Progress) : Progress :=
  let s := if p.source.index == 0 && p.source.peek == '\ufeff' then p.source.tail else p.source
  let (ended, s) := toToken false s
  { p with source := s, keyAllowed := p.keyAllowed || (ended && p.flow == 0) }

/-- Characters that a plain scalar does not begin with. -/
def indicators : String := "-?:,[]\x7b\x7d#&*!|>'\"%@\x60"

/-- Whether a plain scalar begins here. -/
def isPlainStart (p : Progress) : Bool :=
  let c := p.source.peek
  (!isGap c && !indicators.contains c)
    || (!isGap p.source.peekNext && (c == '-' || (p.flow == 0 && (c == '?' || c == ':'))))

/-- The next token. -/
def step (p : Progress) : Except Fault Progress := do
  let p ← p.advance.dropStale
  let p := p.unwind p.source.column
  let s := p.source
  let c := s.peek
  let marks := p.flow != 0 || isGap s.peekNext
  if c == endMark then p.finish
  else if c == '%' && s.column == 0 then p.directive
  else if s.column == 0 && s.isTriple '-' then p.documentMark .documentStart
  else if s.column == 0 && s.isTriple '.' then p.documentMark .documentEnd
  else if c == '[' then p.flowStart .flowSequenceStart
  else if c == '\x7b' then p.flowStart .flowMappingStart
  else if c == ']' then p.flowEnd .flowSequenceEnd
  else if c == '\x7d' then p.flowEnd .flowMappingEnd
  else if c == ',' then p.flowEntry
  else if c == '-' && isGap s.peekNext then p.blockEntry
  else if c == '?' && marks then p.keyMark
  else if c == ':' && marks then p.valueMark
  else if c == '*' then p.content fun s => (anchorName s).map fun (n, r) => (.alias n, r)
  else if c == '&' then p.content fun s => (anchorName s).map fun (n, r) => (.anchor n, r)
  else if c == '!' then p.content tag
  else if c == '|' && p.flow == 0 then p.blockScalar false
  else if c == '>' && p.flow == 0 then p.blockScalar true
  else if c == '\'' then p.content (quotedToken false)
  else if c == '"' then p.content (quotedToken true)
  else if p.isPlainStart then p.plainScalar
  else throw .token

/-- The next token read. What cannot be a key behind it is none, before any token is let out. -/
def next (p : Progress) : Except Fault Progress := do (← p.step).dropStale

/-- All tokens; the first argument bounds their number. -/
def run : Nat → Progress → List Token
  | 0, p => p.released ++ [.broken .token]
  | n + 1, p =>
    match p.next with
    | .error f => p.released ++ [.broken f]
    | .ok q => if q.tokens.head? == some .finish then q.tokens.reverse else run n q

end Progress

/-- The tokens of a text. -/
def Token.ofText (s : List Char) : List Token :=
  if s.all isAllowed then
    let source := Source.locate s
    Progress.run source.length { source }
  else [.broken .character]

end Harvest.Yaml

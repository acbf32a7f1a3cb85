import Harvest.Yaml.Source
import Harvest.Yaml.Fault

/-
  Scalars in the source of a YAML document.

  There are three ways to write them: plain, in quotes, and as a block below a header. In all of them a single line end
  between two lines of text is folded to a space, and of several the first one is dropped; a literal block keeps them.
  Each reader gives the text and what follows it.
-/
namespace Harvest.Yaml
open Source

/-- What a reader gives. -/
abbrev Read (α : Type) := Except Fault (α × Source)

/-- The breaks between two lines when the first of them is folded. -/
def fold (first : Char) (more : List Char) : List Char :=
  if first != '\n' then first :: more else if more.isEmpty then [' '] else more

/-! ## Plain scalars -/

/-- Whether a plain scalar ends before a character, `next` being the one behind it. -/
def endsPlain (flow : Bool) (c next : Char) : Bool :=
  isGap c || (c == ':' && (isGap next || (flow && ",[]\x7b\x7d".contains next)))
    || (flow && ",?[]\x7b\x7d".contains c)

/-- The characters up to the end of a word of a plain scalar. -/
def plainWord (flow : Bool) : Source → List Char × Source
  | [] => ([], [])
  | c :: s =>
    if endsPlain flow c.char (peek s) then ([], c :: s)
    else ((c.char :: (plainWord flow s).1), (plainWord flow s).2)

/-- Line ends with spaces before and after them; nothing if a mark between documents follows one of them. -/
def plainBreaks : Source → Option (List Char) × Source
  | [] => (some [], [])
  | c :: s =>
    if c.char == ' ' then plainBreaks s
    else if isBreak c.char then
      if isDocumentMark s then (none, s) else ((plainBreaks s).1.map (c.char :: ·), (plainBreaks s).2)
    else (some [], c :: s)

/-- What stands between two words of a plain scalar: whether a line ended, what it is folded to (nothing where the scalar
ends), and what follows. -/
def plainGap (s : Source) : Bool × List Char × Source :=
  let spaces := s.run (· == ' ')
  match s.skipSpaces.break? with
  | none => (false, spaces, s.skipSpaces)
  | some (b, r) =>
    if isDocumentMark r then (true, [], r) else
    match plainBreaks r with
    | (some more, r) => (true, fold b more, r)
    | (none, r) => (true, [], r)

/-- A plain scalar from a word on, with the gap before it; `ended` says whether a line ended there. -/
def plainFrom (flow : Bool) (indent : Int) : Nat → Bool → List Char → Source → List Char × Bool × Source
  | 0, ended, _, s => ([], ended, s)
  | n + 1, ended, gap, s =>
    match (if s.peek == '#' then ([], s) else plainWord flow s) with
    | ([], _) => ([], ended, s)
    | (word, r) =>
      let (ended, next, r) := plainGap r
      if next.isEmpty || r.peek == '#' || (!flow && (r.column : Int) < indent) then (gap ++ word, ended, r)
      else
        let (text, last) := plainFrom flow indent n ended next r
        (gap ++ word ++ text, last)

/-- A plain scalar, whether a line ended behind it, and what follows. Outside of flow collections the lines after the
first are indented by at least `indent`. -/
def plain (flow : Bool) (indent : Int) (s : Source) : List Char × Bool × Source :=
  plainFrom flow indent s.length false [] s

/-! ## Quoted scalars -/

/-- The character that a letter behind a backslash stands for. -/
def escape? : Char → Option Char
  | '0' => some '\x00'
  | 'a' => some '\x07'
  | 'b' => some '\x08'
  | 't' => some '\t'
  | '\t' => some '\t'
  | 'n' => some '\n'
  | 'v' => some '\x0b'
  | 'f' => some '\x0c'
  | 'r' => some '\r'
  | 'e' => some '\x1b'
  | ' ' => some ' '
  | '"' => some '"'
  | '\\' => some '\\'
  | '/' => some '/'
  | 'N' => some '\u0085'
  | '_' => some '\u00a0'
  | 'L' => some '\u2028'
  | 'P' => some '\u2029'
  | _ => none

/-- How many hexadecimal digits follow a letter behind a backslash. -/
def escapeWidth? : Char → Option Nat
  | 'x' => some 2
  | 'u' => some 4
  | 'U' => some 8
  | _ => none

/-- The value of a hexadecimal digit. -/
def hexDigit? (c : Char) : Option Nat :=
  if c.isDigit then some (c.toNat - 48)
  else if 'a' ≤ c && c ≤ 'f' then some (c.toNat - 87)
  else if 'A' ≤ c && c ≤ 'F' then some (c.toNat - 55)
  else none

/-- The number that hexadecimal digits write down. -/
def hexValue? (cs : List Char) : Option Nat :=
  cs.foldl (fun n c => match n, hexDigit? c with
    | some n, some d => some (16 * n + d)
    | _, _ => none) (some 0)

/-- The character of a number; half a pair of code units is replaced. -/
def charOf (n : Nat) : Except Fault Char :=
  if 0x7fffffff < n then .error (.scalar .codeTooLarge)
  else if 0x10ffff < n then .error (.scalar .beyondCharacters)
  else .ok (if 0xd800 ≤ n && n ≤ 0xdfff then '\ufffd' else Char.ofNat n)

/-- The character written with a number of hexadecimal digits. -/
def escapedCode (width : Nat) (s : Source) : Except Fault Char :=
  match hexValue? ((s.take width).map (·.char)) with
  | some n => if (s.take width).length < width then .error .token else charOf n
  | none => .error .token

/-- The line ends behind the first one in a quoted scalar, with spaces and tabs around them; `atStart` says that a line
begins here. A line may not begin with a mark between documents. -/
def quotedBreaks (atStart : Bool) : Source → Read (List Char)
  | [] => .ok ([], [])
  | c :: s =>
    if atStart && isDocumentMark (c :: s) then .error .token
    else if isSpaceOrTab c.char then quotedBreaks false s
    else if isBreak c.char then (quotedBreaks true s).map fun (bs, r) => (c.char :: bs, r)
    else .ok ([], c :: s)

/-- Spaces, tabs and line ends inside a quoted scalar. -/
def quotedGap (s : Source) : Read (List Char) :=
  let spaces := s.run isSpaceOrTab
  let r := s.skip isSpaceOrTab
  if r.peek == endMark then .error .token else
  match r.break? with
  | none => .ok (spaces, r)
  | some (b, r) => (quotedBreaks true r).map fun (more, r) => (fold b more, r)

/-- An escape of a double-quoted scalar, from behind its backslash. A line end that is escaped is dropped. -/
def escape (s : Source) : Read (List Char) :=
  let c := s.peek
  match escape? c, escapeWidth? c with
  | some d, _ => .ok ([d], s.tail)
  | none, some width => (escapedCode width s.tail).map fun d => ([d], s.tail.drop width)
  | none, none =>
    match s.break? with
    | some (_, r) => quotedBreaks true r
    | none => .error .token

/-- The next piece of a quoted scalar; none at the closing quote. -/
def quotedPiece (double : Bool) (s : Source) : Read (Option (List Char)) :=
  let c := s.peek
  if isGap c then (quotedGap s).map fun (cs, r) => (some cs, r)
  else if !double && c == '\'' && s.peekNext == '\'' then .ok (some ['\''], s.drop 2)
  else if c == (if double then '"' else '\'') then .ok (none, s.tail)
  else if double && c == '\\' then (escape s.tail).map fun (cs, r) => (some cs, r)
  else .ok (some [c], s.tail)

/-- A quoted scalar from inside its quotes on. -/
def quotedFrom (double : Bool) : Nat → Source → Read (List Char)
  | 0, _ => .error .token
  | n + 1, s =>
    match quotedPiece double s with
    | .error f => .error f
    | .ok (none, r) => .ok ([], r)
    | .ok (some cs, r) => (quotedFrom double n r).map fun (ds, r) => (cs ++ ds, r)

/-- A scalar in double or single quotes, from its opening quote on. -/
def quoted (double : Bool) (s : Source) : Read (List Char) := quotedFrom double s.length s.tail

/-! ## Block scalars -/

/-- What becomes of the line ends behind the last line of a block: all kept, all dropped, or one kept. -/
inductive Chomping where
  | clip
  | keep
  | strip
  deriving DecidableEq, Repr

/-- A sign that says what becomes of the last line ends. -/
def chomping? (c : Char) : Option Chomping :=
  if c == '+' then some .keep else if c == '-' then some .strip else none

/-- An indentation given in a header, which is not zero. -/
def increment? (c : Char) : Except Fault (Option Nat) :=
  if c == '0' then .error .token else .ok (if c.isDigit then some (c.toNat - 48) else none)

/-- The signs of a header behind its first character, in either order. -/
def blockSigns (s : Source) : Except Fault ((Chomping × Option Nat) × Source) := do
  match chomping? s.peek with
  | some k =>
    match ← increment? s.peekNext with
    | some i => return ((k, some i), s.drop 2)
    | none => return ((k, none), s.tail)
  | none =>
    match ← increment? s.peek with
    | none => return ((.clip, none), s)
    | some i =>
      match chomping? s.peekNext with
      | some k => return ((k, some i), s.drop 2)
      | none => return ((.clip, some i), s.tail)

/-- The rest of a line, which may hold a comment only. -/
def endOfLine (s : Source) : Read Unit :=
  let r := s.skipSpaces.skipComment
  if isStop r.peek then .ok ((), r.skipBreak) else .error .token

/-- The line ends before the first line of a block, and the greatest column that spaces among them reach. -/
def blockStart : Source → List Char × Nat × Source
  | [] => ([], 0, [])
  | c :: s =>
    if c.char == ' ' then
      let (bs, widest, r) := blockStart s
      (bs, max (c.column + 1) widest, r)
    else if isBreak c.char then
      let (bs, widest, r) := blockStart s
      (c.char :: bs, widest, r)
    else ([], 0, c :: s)

/-- Line ends with indentations of at most `indent` around them. -/
def blockBreaks (indent : Nat) : Source → List Char × Source
  | [] => ([], [])
  | c :: s =>
    if c.char == ' ' && c.column < indent then blockBreaks indent s
    else if isBreak c.char then (c.char :: (blockBreaks indent s).1, (blockBreaks indent s).2)
    else ([], c :: s)

/-- Whether a line of a block begins here. -/
def isBlockLine (indent : Nat) (s : Source) : Bool := s.column == indent && s.peek != endMark

/-- The lines of a block from one of them on; `breaks` are the line ends before it. The second result is the line end
behind the last line with those that follow it. -/
def blockLines (folded : Bool) (indent : Nat) : Nat → List Char → Source → List Char × (List Char × List Char) × Source
  | 0, breaks, s => ([], ([], breaks), s)
  | n + 1, breaks, s =>
    let line := s.run (!isStop ·)
    let r := s.skip (!isStop ·)
    let lineEnd := (r.break?.map (·.1)).toList
    let (more, t) := blockBreaks indent r.skipBreak
    if isBlockLine indent t then
      let joined := folded && lineEnd == ['\n'] && !isSpaceOrTab s.peek && !isSpaceOrTab t.peek
      let between := if joined then (if more.isEmpty then [' '] else []) else lineEnd
      let (text, last) := blockLines folded indent n more t
      (breaks ++ line ++ between ++ text, last)
    else (breaks ++ line, (lineEnd, more), t)

/-- A block scalar, from its first character on; `outer` is the indentation of the collection around it. -/
def block (folded : Bool) (outer : Int) (s : Source) : Except Fault (List Char × Source) := do
  let ((chomping, increment), r) ← blockSigns s.tail
  if !isSpaceOrStop r.peek then throw .token
  let ((), r) ← endOfLine r
  let least := (max 1 (outer + 1)).toNat
  let (indent, breaks, r) :=
    match increment with
    | none => let (bs, widest, r) := blockStart r; (max least widest, bs, r)
    | some i => let (bs, r) := blockBreaks (least + i - 1) r; (least + i - 1, bs, r)
  let (text, (lineEnd, more), r) :=
    if isBlockLine indent r then blockLines folded indent r.length breaks r else ([], ([], breaks), r)
  match chomping with
  | .strip => return (text, r)
  | .clip => return (text ++ lineEnd, r)
  | .keep => return (text ++ lineEnd ++ more, r)

end Harvest.Yaml

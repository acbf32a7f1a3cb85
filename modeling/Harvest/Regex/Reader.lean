import Harvest.Regex.Pattern
import Harvest.Text.Quoted

/-
  Reading regular expressions.

  The text is seen as a row of tokens: single characters, and backslashes with the character behind them. Reading goes
  token by token and stops at the first fault, which knows its place. `Expression.read` is the way in; `fuel` below is
  a bound on the number of steps, which the length of the text gives.
-/
namespace Harvest.Regex
open Harvest.Text

/-- Why a text is no regular expression. -/
inductive Fault where
  | malformed (what : String) (place : Option Nat)
  | countTooLarge
  deriving DecidableEq, Repr

/-- The text of a fault found in a source. A place is given by line and column too when there are several lines. -/
def Fault.message (source : List Char) : Fault → String
  | .countTooLarge => "the repetition number is too large"
  | .malformed what none => what
  | .malformed what (some n) =>
    let at_ := what ++ " at position " ++ toString n
    if source.contains '\n' then
      let before := source.take n
      let line := before.count '\n' + 1
      let column := match splitLast '\n' before with
        | none => n + 1
        | some (_, tail) => tail.length + 1
      at_ ++ " (line " ++ toString line ++ ", column " ++ toString column ++ ")"
    else at_

/-- What is left of a text: the token in view, empty at the end, the characters behind it, and its place. -/
structure Source where
  token : List Char
  rest : List Char
  place : Nat

/-- Options that change the meaning of what follows. -/
structure Options where
  anyCase : Bool := false
  manyLines : Bool := false
  dotAll : Bool := false
  spaced : Bool := false
  ascii : Bool := false

/-- What is known while reading. -/
structure State where
  source : Source
  names : List (String × Nat) := []
  /-- The number of groups met. -/
  groups : Nat := 0
  /-- The widths of the groups that are closed. -/
  widths : List (Nat × Width) := []
  /-- Inside a look behind: the number of groups met before it. -/
  behindFrom : Option Nat := none
  /-- Groups that conditions refer to, with the places. -/
  conditions : List (Nat × Nat) := []
  /-- Whether a look behind has parts of several widths. -/
  unevenBehind : Bool := false

/-- Reading with a state, up to the first fault. -/
abbrev ReadM := StateT State (Except Fault)

/-- The token at the front of a text. -/
def tokenAt (place : Nat) : List Char → Except Fault Source
  | [] => .ok ⟨[], [], place⟩
  | ['\\'] => .error (.malformed "bad escape (end of pattern)" (some place))
  | '\\' :: c :: s => .ok ⟨['\\', c], s, place⟩
  | c :: s => .ok ⟨[c], s, place⟩

/-- The token in view. -/
def view : ReadM (List Char) := do return (← get).source.token

/-- Goes to the next token. -/
def advance : ReadM Unit := do
  let st ← get
  let next ← (tokenAt (st.source.place + st.source.token.length) st.source.rest : Except Fault Source)
  set { st with source := next }

/-- Takes the token in view. -/
def take : ReadM (List Char) := do
  let t ← view
  advance
  return t

/-- Takes the token in view if it is this character. -/
def accept (c : Char) : ReadM Bool := do
  if (← view) == [c] then advance; return true else return false

/-- The place of the token in view. -/
def here : ReadM Nat := do return (← get).source.place

/-- A fault some characters before the token in view. -/
def failBack {α : Type} (back : Nat) (what : String) : ReadM α := do
  let n ← here
  throw (.malformed what (some (n - back)))

/-- A fault at a place. -/
def failAt {α : Type} (place : Nat) (what : String) : ReadM α := throw (.malformed what (some place))

/-- Takes up to `n` tokens that are single characters with a property. -/
def takeWhile (test : Char → Bool) : Nat → ReadM (List Char)
  | 0 => return []
  | n + 1 => do
    match ← view with
    | [c] => if test c then advance; return c :: (← takeWhile test n) else return []
    | _ => return []

/-- Takes tokens up to a terminator, which is taken too; `what` names what is being read. -/
def takeUntil (terminator : Char) (what : String) : Nat → List Char → ReadM (List Char)
  | 0, acc => return acc
  | fuel + 1, acc => do
    let t ← take
    if t.isEmpty then
      if acc.isEmpty then failBack 0 ("missing " ++ what)
      else failBack acc.length ("missing " ++ terminator.toString ++ ", unterminated name")
    else if t == [terminator] then
      if acc.isEmpty then failBack 1 ("missing " ++ what) else return acc
    else takeUntil terminator what fuel (acc ++ t)

/-- An octal digit. -/
def isOctal (c : Char) : Bool := '0' ≤ c && c ≤ '7'

/-- A hexadecimal digit. -/
def isHexDigit (c : Char) : Bool := c.isDigit || ('a' ≤ c && c ≤ 'f') || ('A' ≤ c && c ≤ 'F')

/-- The value of a digit. -/
def digitValue (c : Char) : Nat :=
  if c.isDigit then c.toNat - 48 else if 'a' ≤ c then c.toNat - 87 else c.toNat - 55

/-- The number that digits write in a base. -/
def number (base : Nat) (ds : List Char) : Nat := ds.foldl (fun n c => base * n + digitValue c) 0

/-- The character that a letter behind a backslash stands for. -/
def controlOf? : Char → Option Char
  | 'a' => some '\x07'
  | 'f' => some '\x0c'
  | 'n' => some '\n'
  | 'r' => some '\r'
  | 't' => some '\t'
  | 'v' => some '\x0b'
  | '\\' => some '\\'
  | _ => none

/-- The class that a letter behind a backslash stands for, and whether its outside is meant. -/
def categoryOf? : Char → Option (Category × Bool)
  | 'd' => some (.digit, false)
  | 'D' => some (.digit, true)
  | 's' => some (.blank, false)
  | 'S' => some (.blank, true)
  | 'w' => some (.word, false)
  | 'W' => some (.word, true)
  | _ => none

/-- A character given by a fixed number of hexadecimal digits. -/
def readHex (letter : Char) (count : Nat) : ReadM Char := do
  let ds ← takeWhile isHexDigit count
  let text := String.ofList ('\\' :: letter :: ds)
  if ds.length < count then failBack (2 + ds.length) ("incomplete escape " ++ text)
  else if 0x10ffff < number 16 ds then failBack (2 + ds.length) ("bad escape " ++ text)
  else return Char.ofNat (number 16 ds)

/-- A character given by its name. The names of Unicode are left out: no name is known here, so every one is refused as
one that does not exist is. -/
def readNamed (fuel : Nat) : ReadM Char := do
  if !(← accept '\x7b') then failBack 0 "missing \x7b"
  let name ← takeUntil '\x7d' "character name" fuel []
  failBack (name.length + 4) ("undefined character name " ++ String.ofList (quoted name))

/-- A character given by octal digits, the first of which is read. -/
def readOctal (first : Char) : ReadM Char := do
  let ds ← takeWhile isOctal 2
  let n := number 8 (first :: ds)
  if 0o377 < n then
    failBack (2 + ds.length)
      ("octal escape value " ++ String.ofList ('\\' :: first :: ds) ++ " outside of range 0-0o377")
  else return Char.ofNat n

/-- The fault of an escape that means nothing. -/
def badEscape {α : Type} (c : Char) : ReadM α := failBack 2 ("bad escape " ++ String.ofList ['\\', c])

/-- An escape inside brackets: a character or a class. -/
def readSetEscape (fuel : Nat) (o : Options) (c : Char) : ReadM Member := do
  if c == 'b' then return .char '\x08'
  match controlOf? c, categoryOf? c with
  | some d, _ => return .char d
  | _, some (k, outside) => return .category k o.ascii outside
  | none, none =>
    if c == 'x' then return .char (← readHex c 2)
    else if c == 'u' then return .char (← readHex c 4)
    else if c == 'U' then return .char (← readHex c 8)
    else if c == 'N' then return .char (← readNamed fuel)
    else if isOctal c then return .char (← readOctal c)
    else if c.isAlphanum then badEscape c
    else return .char c

/-- Whether a group is closed. -/
def isClosed (i : Nat) : ReadM Bool := do return ((← get).widths.lookup i).isSome

/-- Checks a group that is referred to from inside a look behind. -/
def checkBehind (i : Nat) : ReadM Unit := do
  match (← get).behindFrom with
  | none => return ()
  | some from_ =>
    if !(← isClosed i) then failBack 0 "cannot refer to an open group"
    if from_ < i then failBack 0 "cannot refer to group defined in the same lookbehind subpattern"

/-- A reference to a group, whose number was `length` characters long. -/
def readReference (o : Options) (i length : Nat) : ReadM Pattern := do
  if i ≤ (← get).groups then
    if !(← isClosed i) then failBack length "cannot refer to an open group"
    checkBehind i
    return .again i o.anyCase
  else failBack (length - 1) ("invalid group reference " ++ toString i)

/-- A digit behind a backslash: a group, or a character by three octal digits. -/
def readNumbered (o : Options) (c : Char) : ReadM Pattern := do
  match ← takeWhile Char.isDigit 1 with
  | [d] =>
    if isOctal c && isOctal d then
      match ← takeWhile isOctal 1 with
      | [e] =>
        let n := number 8 [c, d, e]
        if 0o377 < n then
          failBack 4 ("octal escape value " ++ String.ofList ['\\', c, d, e] ++ " outside of range 0-0o377")
        else return .char (Char.ofNat n) o.anyCase
      | _ => readReference o (number 10 [c, d]) 3
    else readReference o (number 10 [c, d]) 3
  | _ => readReference o (number 10 [c]) 2

/-- An escape outside brackets. -/
def readEscape (fuel : Nat) (o : Options) (c : Char) : ReadM Pattern := do
  if c == 'A' then return .anchor .textStart
  if c == 'Z' then return .anchor .textEnd
  if c == 'b' then return .anchor (.wordEdge o.ascii false)
  if c == 'B' then return .anchor (.wordEdge o.ascii true)
  match categoryOf? c, controlOf? c with
  | some (k, outside), _ => return .set false [.category k o.ascii outside] o.anyCase
  | _, some d => return .char d o.anyCase
  | none, none =>
    if c == 'x' then return .char (← readHex c 2) o.anyCase
    else if c == 'u' then return .char (← readHex c 4) o.anyCase
    else if c == 'U' then return .char (← readHex c 8) o.anyCase
    else if c == 'N' then return .char (← readNamed fuel) o.anyCase
    else if c == '0' then
      let ds ← takeWhile isOctal 2
      return .char (Char.ofNat (number 8 ds)) o.anyCase
    else if c.isDigit then readNumbered o c
    else if c.isAlpha then badEscape c
    else return .char c o.anyCase

/-- The text of a member that a range begins or ends with. -/
def memberOf (fuel : Nat) (o : Options) (t : List Char) : ReadM Member :=
  match t with
  | ['\\', c] => readSetEscape fuel o c
  | c :: _ => return .char c
  | [] => return .char ' '

/-- The members of a set, up to the closing bracket; `opened` is the place of the opening one. -/
def readMembers (o : Options) (opened : Nat) : Nat → List Member → ReadM (List Member)
  | 0, ms => return ms
  | fuel + 1, ms => do
    let t ← take
    if t.isEmpty then failAt opened "unterminated character set"
    else if t == [']'] && !ms.isEmpty then return ms
    else
      let low ← memberOf fuel o t
      if ← accept '-' then
        let u ← take
        if u.isEmpty then failAt opened "unterminated character set"
        else if u == [']'] then return ms ++ [low, .char '-']
        else
          let high ← memberOf fuel o u
          let bad : ReadM (List Member) :=
            failBack (t.length + 1 + u.length)
              ("bad character range " ++ String.ofList t ++ "-" ++ String.ofList u)
          match low, high with
          | .char a, .char b => if b < a then bad else readMembers o opened fuel (ms ++ [.range a b])
          | _, _ => bad
      else readMembers o opened fuel (ms ++ [low])

/-- The counts between braces, if they are counts: least, most and whether anything was wrong. -/
def readCounts (fuel : Nat) : ReadM (Option (Nat × Option Nat)) := do
  let start ← get
  let low ← takeWhile Char.isDigit fuel
  let comma ← accept ','
  let high ← if comma then takeWhile Char.isDigit fuel else pure low
  if !(← accept '\x7d') then
    set start
    return none
  let limit := 4294967295
  let least := number 10 low
  if limit ≤ least then throw .countTooLarge
  if high.isEmpty then return some (least, none)
  let most := number 10 high
  if limit ≤ most then throw .countTooLarge
  if most < least then failAt start.source.place "min repeat greater than max repeat"
  return some (least, some most)

/-- Puts a repetition in place of the last part. -/
def repeatLast (startedAt : Nat) (least : Nat) (most : Option Nat) (parts : List Pattern) : ReadM (List Pattern) := do
  match parts with
  | [] => failAt startedAt "nothing to repeat"
  | .anchor _ :: _ => failAt startedAt "nothing to repeat"
  | .many _ _ _ _ :: _ => failAt startedAt "multiple repeat"
  | p :: ps =>
    let greed ← if ← accept '?' then pure Greed.reluctant
      else if ← accept '+' then pure Greed.possessive
      else pure Greed.greedy
    return .many least most greed p :: ps

/-- A group name that may be used. -/
def isName : List Char → Bool
  | [] => false
  | c :: s => (c == '_' || (isAlphanumeric c && !isDigit c)) && s.all isWord

/-- Checks the name of a group. -/
def checkName (name : List Char) : ReadM Unit :=
  if isName name then return () else
    failBack (name.length + 1) ("bad character in group name " ++ String.ofList (quoted name))

/-- The options that letters turn on, with the letters seen to need one class of characters. -/
def setOption (o : Options) (on : Bool) : Char → Options
  | 'i' => { o with anyCase := on }
  | 'm' => { o with manyLines := on }
  | 's' => { o with dotAll := on }
  | 'x' => { o with spaced := on }
  | 'a' => { o with ascii := on }
  | 'u' => { o with ascii := !on }
  | _ => o

/-- A letter that names an option. -/
def isOptionLetter (c : Char) : Bool := "iLmsxatu".toList.contains c

/-- The fault of a letter that is no option. -/
def badLetter {α : Type} (t : List Char) (missing : String) : ReadM α :=
  match t with
  | [] => failBack 0 missing
  | c :: _ => failBack t.length (if isAlphanumeric c && !isDigit c then "unknown flag" else missing)

/-- Letters that turn options on; gives them with the character that ends them. -/
def readOn : Nat → List Char → Char → ReadM (List Char × Char)
  | 0, on, c => return (on, c)
  | fuel + 1, on, c => do
    if c == 'L' then failBack 0 "bad inline flags: cannot use 'L' flag with a str pattern"
    let on := on ++ [c]
    if (c == 'a' || c == 'u') && on.contains 'a' && on.contains 'u' then
      failBack 0 "bad inline flags: flags 'a', 'u' and 'L' are incompatible"
    let t ← take
    match t with
    | [d] =>
      if d == ')' || d == '-' || d == ':' then return (on, d)
      else if isOptionLetter d then readOn fuel on d
      else badLetter t "missing -, : or )"
    | _ => badLetter t "missing -, : or )"

/-- Letters that turn options off, up to the colon. -/
def readOff : Nat → List Char → Char → ReadM (List Char)
  | 0, off, _ => return off
  | fuel + 1, off, c => do
    if c == 'a' || c == 'u' || c == 'L' then
      failBack 0 "bad inline flags: cannot turn off flags 'a', 'u' and 'L'"
    let off := off ++ [c]
    let t ← take
    match t with
    | [d] =>
      if d == ':' then return off
      else if isOptionLetter d then readOff fuel off d
      else badLetter t "missing :"
    | _ => badLetter t "missing :"

/-- Options in front of a part, the first letter being read: none when they hold for the whole expression. -/
def readOptions (fuel : Nat) (o : Options) (c : Char) : ReadM (Options × Bool) := do
  let (on, stop) ← if c == '-' then pure ([], '-') else readOn fuel [] c
  if stop == ')' then return (on.foldl (fun o c => setOption o true c) o, true)
  if on.contains 't' then failBack 1 "bad inline flags: cannot turn on global flag"
  let off ← if stop == '-' then do
      let t ← take
      match t with
      | [d] => if isOptionLetter d then readOff fuel [] d else badLetter t "missing flag"
      | _ => badLetter t "missing flag"
    else pure []
  if off.contains 't' then failBack 1 "bad inline flags: cannot turn off global flag"
  if on.any off.contains then failBack 1 "bad inline flags: flag turned on and off"
  let o := on.foldl (fun o c => setOption o true c) o
  return (off.foldl (fun o c => setOption o false c) o, false)

/-- Opens a group, under a name if it has one. -/
def openGroup (name : Option (List Char)) : ReadM Nat := do
  let st ← get
  let i := st.groups + 1
  match name with
  | none =>
    set { st with groups := i }
    return i
  | some n =>
    match st.names.lookup (String.ofList n) with
    | some j =>
      failBack (n.length + 1) ("redefinition of group name " ++ String.ofList (quoted n) ++ " as group " ++ toString i
        ++ "; was group " ++ toString j)
    | none =>
      set { st with groups := i, names := (String.ofList n, i) :: st.names }
      return i

/-- The width of a part, by the groups closed so far. -/
def widthOf (p : Pattern) : ReadM Width := do
  let ws := (← get).widths
  return p.width fun i => (ws.lookup i).getD (0, some 0)

/-- Closes a group. -/
def closeGroup (i : Nat) (p : Pattern) : ReadM Unit := do
  let w ← widthOf p
  modify fun st => { st with widths := (i, w) :: st.widths }

/-- Takes the parenthesis that closes what began at a place. -/
def closeParen (opened : Nat) : ReadM Unit := do
  if !(← accept ')') then failAt opened "missing ), unterminated subpattern"

/-- Skips a comment in parentheses. -/
def skipComment (opened : Nat) : Nat → ReadM Unit
  | 0 => return ()
  | fuel + 1 => do
    if (← view).isEmpty then failAt opened "missing ), unterminated comment"
    if (← take) == [')'] then return () else skipComment opened fuel

/-- Skips a comment up to the end of the line. -/
def skipLine : Nat → ReadM Unit
  | 0 => return ()
  | fuel + 1 => do
    let t ← take
    if t.isEmpty || t == ['\n'] then return () else skipLine fuel

/-- Blanks that are skipped where blanks do not count. -/
def isSkipped (t : List Char) : Bool :=
  t == [' '] || t == ['\t'] || t == ['\n'] || t == ['\r'] || t == ['\x0b'] || t == ['\x0c']

/-- The parts of a row, the last one first, as one pattern. -/
def row : List Pattern → Pattern
  | [] => .nothing
  | p :: ps => ps.foldl (fun acc q => .cat q acc) p

/-- The group that a condition names, with a check of the name. -/
def readCondition (fuel : Nat) : ReadM Nat := do
  let name ← takeUntil ')' "group name" fuel []
  let i ← if isName name then do
      match (← get).names.lookup (String.ofList name) with
      | some i => pure i
      | none => failBack (name.length + 1) ("unknown group name " ++ String.ofList (quoted name))
    else if !name.isEmpty && name.all Char.isDigit then pure (number 10 name)
    else failBack (name.length + 1) ("bad character in group name " ++ String.ofList (quoted name))
  if i == 0 then failBack (name.length + 1) "bad group number"
  let n ← here
  modify fun st =>
    if (st.conditions.lookup i).isSome || isName name then st
    else { st with conditions := st.conditions ++ [(i, n - name.length - 1)] }
  checkBehind i
  return i

mutual

/-- Alternatives, up to a closing parenthesis or the end. -/
def readAlternatives (fuel : Nat) (o : Options) (outermost : Bool) : ReadM Pattern := do
  match fuel with
  | 0 => return .nothing
  | fuel + 1 =>
    let (p, o) ← readRow fuel o outermost []
    if ← accept '|' then
      let q ← readAlternatives fuel o false
      return .alt p q
    else return p

/-- A row of parts; `parts` holds those already read, the last one first. Gives the options that hold behind it. -/
def readRow (fuel : Nat) (o : Options) (first : Bool) (parts : List Pattern) : ReadM (Pattern × Options) := do
  match fuel with
  | 0 => return (row parts, o)
  | fuel + 1 =>
    let t ← view
    if t.isEmpty || t == ['|'] || t == [')'] then return (row parts, o)
    advance
    if o.spaced && isSkipped t then readRow fuel o first parts
    else if o.spaced && t == ['#'] then do
      skipLine fuel
      readRow fuel o first parts
    else match t with
    | ['\\', c] => do
      let p ← readEscape fuel o c
      readRow fuel o first (p :: parts)
    | ['['] => do
      let opened := (← here) - 1
      let outside ← accept '^'
      let ms ← readMembers o opened fuel []
      readRow fuel o first (.set outside ms o.anyCase :: parts)
    | ['.'] => readRow fuel o first (.any o.dotAll :: parts)
    | ['^'] => readRow fuel o first (.anchor (if o.manyLines then .lineStart else .textStart) :: parts)
    | ['$'] => readRow fuel o first (.anchor (if o.manyLines then .lineEnd else .lastLineEnd) :: parts)
    | ['*'] => do
      let n ← here
      readRow fuel o first (← repeatLast (n - 1) 0 none parts)
    | ['+'] => do
      let n ← here
      readRow fuel o first (← repeatLast (n - 1) 1 none parts)
    | ['?'] => do
      let n ← here
      readRow fuel o first (← repeatLast (n - 1) 0 (some 1) parts)
    | ['\x7b'] => do
      if (← view) == ['\x7d'] then readRow fuel o first (.char '\x7b' o.anyCase :: parts) else
      let n ← here
      match ← readCounts fuel with
      | none => readRow fuel o first (.char '\x7b' o.anyCase :: parts)
      | some (least, most) => readRow fuel o first (← repeatLast (n - 1) least most parts)
    | ['('] => do
      let opened := (← here) - 1
      let (p?, o) ← readGroup fuel o opened (first && parts.isEmpty)
      readRow fuel o first (p?.toList ++ parts)
    | c :: _ => readRow fuel o first (.char c o.anyCase :: parts)
    | [] => return (row parts, o)

/-- What an opening parenthesis begins: a part, or options for what follows. -/
def readGroup (fuel : Nat) (o : Options) (opened : Nat) (atStart : Bool) : ReadM (Option Pattern × Options) := do
  match fuel with
  | 0 => return (none, o)
  | fuel + 1 =>
    if !(← accept '?') then
      let i ← openGroup none
      let p ← readAlternatives fuel o false
      closeParen opened
      closeGroup i p
      return (some (.group i p), o)
    let t ← take
    match t with
    | [] => failBack 0 "unexpected end of pattern"
    | [':'] => do
      let p ← readAlternatives fuel o false
      closeParen opened
      return (some (.enclosed p), o)
    | ['>'] => do
      let p ← readAlternatives fuel o false
      closeParen opened
      return (some (.atomic p), o)
    | ['#'] => do
      skipComment opened fuel
      return (none, o)
    | ['='] => do
      let p ← readAlternatives fuel o false
      closeParen opened
      return (some (.ahead false p), o)
    | ['!'] => do
      let p ← readAlternatives fuel o false
      closeParen opened
      return (some (.ahead true p), o)
    | ['<'] => do
      let u ← take
      if u.isEmpty then failBack 0 "unexpected end of pattern"
      if u != ['='] && u != ['!'] then
        failBack (u.length + 2) ("unknown extension ?<" ++ String.ofList u)
      let outer := (← get).behindFrom
      if outer.isNone then modify fun st => { st with behindFrom := some st.groups }
      let p ← readAlternatives fuel o false
      if outer.isNone then modify fun st => { st with behindFrom := none }
      closeParen opened
      let (low, high) ← widthOf p
      if high != some low then modify fun st => { st with unevenBehind := true }
      return (some (.behind (u == ['!']) low p), o)
    | ['('] => do
      let i ← readCondition fuel
      let (p, _) ← readRow fuel o false []
      let q ← if ← accept '|' then do
          let (q, _) ← readRow fuel o false []
          if (← view) == ['|'] then failBack 0 "conditional backref with more than two branches"
          pure q
        else pure .nothing
      closeParen opened
      return (some (.branch i p q), o)
    | ['P'] => do
      if ← accept '<' then
        let name ← takeUntil '>' "group name" fuel []
        checkName name
        let i ← openGroup (some name)
        let p ← readAlternatives fuel o false
        closeParen opened
        closeGroup i p
        return (some (.group i p), o)
      if ← accept '=' then
        let name ← takeUntil ')' "group name" fuel []
        checkName name
        match (← get).names.lookup (String.ofList name) with
        | none => failBack (name.length + 1) ("unknown group name " ++ String.ofList (quoted name))
        | some i =>
          if !(← isClosed i) then failBack (name.length + 1) "cannot refer to an open group"
          checkBehind i
          return (some (.again i o.anyCase), o)
      let u ← take
      if u.isEmpty then failBack 0 "unexpected end of pattern"
      failBack (u.length + 2) ("unknown extension ?P" ++ String.ofList u)
    | [c] => do
      if isOptionLetter c || c == '-' then
        let (inner, whole) ← readOptions fuel o c
        if whole then
          if !atStart then failAt opened "global flags not at the start of the expression"
          return (none, inner)
        let p ← readAlternatives fuel inner false
        closeParen opened
        return (some (.enclosed p), o)
      else failBack 2 ("unknown extension ?" ++ c.toString)
    | _ => failBack (t.length + 1) ("unknown extension ?" ++ String.ofList t)

end

/-- A whole expression. -/
def readWhole (fuel : Nat) : ReadM Pattern := do
  let p ← readAlternatives fuel {} true
  if !(← view).isEmpty then failBack 0 "unbalanced parenthesis"
  let st ← get
  match st.conditions.find? (st.groups < ·.1) with
  | some (i, place) => failAt place ("invalid group reference " ++ toString i)
  | none => pure ()
  if st.unevenBehind then throw (.malformed "look-behind requires fixed-width pattern" none)
  return p

/-- Reads a regular expression. -/
def Expression.read (source : String) : Except Fault Expression := do
  let s := source.toList
  let first ← tokenAt 0 s
  let (p, st) ← (readWhole (4 * s.length + 8)).run { source := first }
  return ⟨source, p, st.groups⟩

end Harvest.Regex

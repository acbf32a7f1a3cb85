/-
  The source of a YAML document: characters with their places.

  `Source.locate` writes every line end as one line feed, the two separators of Unicode excepted, and gives each
  character its index, line and column. A mark that no text can hold, `endMark`, stands at the end.
-/
namespace Harvest.Yaml

/-- A character and where it stands. A byte order mark takes no column. -/
structure Spot where
  char : Char
  index : Nat
  line : Nat
  column : Nat
  deriving DecidableEq, Repr

/-- Characters with their places. -/
abbrev Source := List Spot

/-- The mark behind the last character. -/
def endMark : Char := '\x00'

/-- A line end. -/
def isBreak (c : Char) : Bool := c == '\n' || c == '\u2028' || c == '\u2029'

/-- A line end or the end. -/
def isStop (c : Char) : Bool := c == endMark || isBreak c

/-- A line end, the end or a space. -/
def isSpaceOrStop (c : Char) : Bool := c == ' ' || isStop c

/-- A line end, the end, a space or a tab. -/
def isGap (c : Char) : Bool := c == '\t' || isSpaceOrStop c

/-- A space or a tab. -/
def isSpaceOrTab (c : Char) : Bool := c == ' ' || c == '\t'

/-- A letter or digit of ASCII, a hyphen or a low line. -/
def isName (c : Char) : Bool := c.isAlphanum || c == '-' || c == '_'

/-- A character that may occur in a document. -/
def isAllowed (c : Char) : Bool :=
  let n := c.toNat
  n == 9 || n == 10 || n == 13 || (0x20 ≤ n && n ≤ 0x7e) || n == 0x85 || (0xa0 ≤ n && n ≤ 0xd7ff)
    || (0xe000 ≤ n && n ≤ 0xfffd) || 0x10000 ≤ n

namespace Source

/-- Characters with their places, the first one at a given place. -/
def locateFrom (index line column : Nat) : List Char → Source
  | [] => [⟨endMark, index, line, column⟩]
  | '\r' :: '\n' :: s => ⟨'\n', index, line, column⟩ :: locateFrom (index + 2) (line + 1) 0 s
  | c :: s =>
    let d := if c == '\r' || c == '\u0085' then '\n' else c
    ⟨d, index, line, column⟩ ::
      (if isBreak d then locateFrom (index + 1) (line + 1) 0 s
       else locateFrom (index + 1) line (if d == '\ufeff' then column else column + 1) s)

/-- The characters of a text with their places. -/
def locate (s : List Char) : Source := locateFrom 0 0 0 s

/-- The character in front. -/
def peek (s : Source) : Char := (s.head?.map (·.char)).getD endMark

/-- The character behind the one in front. -/
def peekNext (s : Source) : Char := peek s.tail

/-- The column in front. -/
def column (s : Source) : Nat := (s.head?.map (·.column)).getD 0

/-- The line in front. -/
def line (s : Source) : Nat := (s.head?.map (·.line)).getD 0

/-- The index in front. -/
def index (s : Source) : Nat := (s.head?.map (·.index)).getD 0

/-- The characters of a class in front. -/
def run (p : Char → Bool) (s : Source) : List Char := (s.takeWhile (p ·.char)).map (·.char)

/-- What follows the characters of a class in front. -/
def skip (p : Char → Bool) (s : Source) : Source := s.dropWhile (p ·.char)

/-- Without the spaces in front. -/
def skipSpaces (s : Source) : Source := s.skip (· == ' ')

/-- What is left of the line behind spaces and a comment. -/
def skipComment (s : Source) : Source := if s.peek == '#' then s.skip (!isStop ·) else s

/-- The line end in front, and what follows it. -/
def break? (s : Source) : Option (Char × Source) := if isBreak s.peek then some (s.peek, s.tail) else none

/-- Without the line end in front. -/
def skipBreak (s : Source) : Source := (s.break?.map (·.2)).getD s

/-- Three characters in front that are all `c`, with a gap behind. -/
def isTriple (c : Char) (s : Source) : Bool :=
  (s.take 3).map (·.char) == [c, c, c] && isGap (peek (s.drop 3))

/-- A mark between documents in front. -/
def isDocumentMark (s : Source) : Bool := s.isTriple '-' || s.isTriple '.'

end Source
end Harvest.Yaml

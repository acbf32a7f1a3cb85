/-
  Blank characters, and the operations on text that turn on them.

  Text is a list of characters here. `isBlank` is the one notion of white space of the library: the blanks of
  Unicode together with the four information separators U+001C to U+001F.
    1. `trim` removes blanks at both ends.
    2. `words` lists the maximal runs of characters that are not blank.
    3. `squish` writes every run of blanks as one space and trims.
-/
namespace Harvest.Text

/-- White space: tab to carriage return, the information separators, the space, and the separators of Unicode. -/
def isBlank (c : Char) : Bool :=
  let n := c.toNat
  (9 ≤ n && n ≤ 13) || (28 ≤ n && n ≤ 32) || n == 0x85 || n == 0xa0 || n == 0x1680
    || (0x2000 ≤ n && n ≤ 0x200a) || n == 0x2028 || n == 0x2029 || n == 0x202f || n == 0x205f || n == 0x3000

/-- A blank of ASCII, as markup and selectors have it: space, tab, line end, return or form feed. -/
def isGap (c : Char) : Bool := c == ' ' || c == '\t' || c == '\n' || c == '\r' || c == '\x0c'

/-- Without the blanks in front. -/
def trimLeft (s : List Char) : List Char := s.dropWhile isBlank

/-- Without the blanks behind. -/
def trimRight (s : List Char) : List Char := (s.reverse.dropWhile isBlank).reverse

/-- Without the blanks at either end. -/
def trim (s : List Char) : List Char := trimRight (trimLeft s)

/-- `trim` on strings. -/
def trimmed (s : String) : String := String.ofList (trim s.toList)

/-- Whether every character is blank. -/
def allBlank (s : List Char) : Bool := s.all isBlank

/-- The words of a text that begins with `word`, read backwards. -/
def wordsFrom (word : List Char) : List Char → List (List Char)
  | [] => if word.isEmpty then [] else [word.reverse]
  | c :: s =>
    if isBlank c then (if word.isEmpty then wordsFrom [] s else word.reverse :: wordsFrom [] s)
    else wordsFrom (c :: word) s

/-- The maximal runs of characters that are not blank, in order. -/
def words (s : List Char) : List (List Char) := wordsFrom [] s

/-- Every maximal run of blanks becomes one space; `after` says that the run before is already written. -/
def collapseAfter : Bool → List Char → List Char
  | _, [] => []
  | after, c :: s =>
    if isBlank c then (if after then collapseAfter true s else ' ' :: collapseAfter true s)
    else c :: collapseAfter false s

/-- Every maximal run of blanks becomes one space. -/
def collapse (s : List Char) : List Char := collapseAfter false s

/-- One space between words and none at the ends. -/
def squish (s : List Char) : List Char := trim (collapse s)

end Harvest.Text

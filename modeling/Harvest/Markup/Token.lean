import Harvest.Markup.Node
import Harvest.Markup.Reference
import Harvest.Text.Blank
import Harvest.Text.Casing
import Harvest.Text.Quoted

/-
  Markup as a row of tokens: texts, comments, opening and closing tags.

  Names are taken in lower case of ASCII, references are resolved, and what stands inside a script or a style element is
  one text up to the tag that closes it. Declarations and marked sections are passed over, up to the next closing angle
  bracket; a section of no known kind is told.
-/
namespace Harvest.Markup
open Text

/-- A token of markup. -/
inductive Token where
  | text (s : List Char)
  | comment (s : List Char)
  /-- An opening tag; `closed` says that it closes at once. -/
  | opening (tag : Tag) (closed : Bool)
  | closing (name : String)
  /-- A marked section that is none, with what is wrong about it. -/
  | badSection (message : String)
  deriving Repr

/-- A character that ends a name. -/
def endsName (c : Char) : Bool := isGap c || c == '/' || c == '>' || c == '\x00'

/-- Characters as a name. -/
def nameOf (s : List Char) : String := String.ofList (lowerAscii s)

/-- The value of an attribute, behind the equals sign, and the rest. -/
def takeValue (s : List Char) : List Char × List Char :=
  match s with
  | '"' :: r => let (v, rest) := splitFirst '"' r; (v, rest.getD [])
  | '\'' :: r => let (v, rest) := splitFirst '\'' r; (v, rest.getD [])
  | r => (r.takeWhile fun c => !isGap c && c != '>', r.dropWhile fun c => !isGap c && c != '>')

/-- One attribute and the rest; an attribute without a value has the empty one. -/
def takeAttribute (s : List Char) : (String × String) × List Char :=
  let stops (c : Char) : Bool := endsName c || c == '='
  let name := s.take 1 ++ (s.drop 1).takeWhile (!stops ·)
  let rest := (s.drop 1).dropWhile (!stops ·)
  match rest.dropWhile isGap with
  | '=' :: r =>
    let (v, r) := takeValue (r.dropWhile isGap)
    ((nameOf name, String.ofList (resolve v)), r)
  | _ => ((nameOf name, ""), rest)

/-- The attributes up to the end of a tag, whether the tag closes at once, and the rest. -/
def takeAttributes : Nat → List Char → List (String × String) × Bool × List Char
  | 0, s => ([], false, s)
  | _ + 1, [] => ([], false, [])
  | _ + 1, '>' :: s => ([], false, s)
  | _ + 1, '/' :: '>' :: s => ([], true, s)
  | fuel + 1, c :: s =>
    if isGap c || c == '/' then takeAttributes fuel s else
    let (a, r) := takeAttribute (c :: s)
    let (as, closed, r) := takeAttributes fuel r
    (a :: as, closed, r)

/-- An opening tag, behind the angle bracket, and the rest. -/
def takeOpening (s : List Char) : Tag × Bool × List Char :=
  let name := nameOf (s.takeWhile (!endsName ·))
  let (as, closed, r) := takeAttributes (s.length + 1) (s.dropWhile (!endsName ·))
  (.ofWritten name as, closed, r)

/-- What stands before a text, and what follows it; all and nothing if it does not occur. -/
def splitText (t : List Char) : List Char → List Char × List Char
  | [] => ([], [])
  | c :: s =>
    match dropText? t (c :: s) with
    | some r => ([], r)
    | none =>
      let (a, b) := splitText t s
      (c :: a, b)

/-- The content of an element that holds no markup, and the rest from its closing tag on. -/
def takeRaw (name : String) : List Char → List Char × List Char
  | [] => ([], [])
  | c :: s =>
    let closing := '<' :: '/' :: name.toList
    if lowerAscii ((c :: s).take closing.length) == closing && (s.drop (closing.length - 1)).head?.all endsName then
      ([], c :: s)
    else
      let (a, b) := takeRaw name s
      (c :: a, b)

/-- Whether an angle bracket before a text begins markup. -/
def beginsMarkup : List Char → Bool
  | '/' :: c :: _ => c.isAlpha
  | c :: _ => c.isAlpha || c == '!' || c == '?'
  | [] => false

/-- The text up to the next markup, and the rest. -/
def takeText : List Char → List Char × List Char
  | [] => ([], [])
  | c :: s =>
    if c == '<' && beginsMarkup s then ([], c :: s) else
    let (a, b) := takeText s
    (c :: a, b)

/-- A text as tokens: none if it is empty. -/
def textToken (s : List Char) : List Token := if s.isEmpty then [] else [.text s]

/-- The kinds of marked sections. -/
def sectionKinds : List String := ["temp", "cdata", "ignore", "include", "rcdata", "if", "else", "endif"]

/-- What a name of a section goes on with. -/
def continuesSection (c : Char) : Bool := c.isAlphanum || c == '-' || c == '_' || c == '.'

/-- What is wrong about a marked section, behind its opening bracket. Where the text ends it is not told. -/
def sectionFault? (s : List Char) : Option String :=
  match s with
  | [] => none
  | c :: _ =>
    if !c.isAlpha then some ("expected name token at " ++ quotedString (String.ofList (("<![".toList ++ s).take 20))) else
    let name := s.takeWhile continuesSection
    let behind := s.dropWhile continuesSection
    if (behind.dropWhile isBlank).isEmpty || sectionKinds.contains (nameOf name) then none
    else some ("unknown status keyword " ++ quotedString (String.ofList (name ++ behind.takeWhile isBlank))
      ++ " in marked section")

/-- The token of a marked section, if something is wrong about it. -/
def sectionToken (s : List Char) : List Token := ((sectionFault? s).map .badSection).toList

/-- The tokens of a text, `fuel` bounding their number. -/
def tokensFrom : Nat → List Char → List Token
  | 0, _ => []
  | _ + 1, [] => []
  | fuel + 1, '<' :: '!' :: '-' :: '-' :: s =>
    let (c, r) := splitText ['-', '-', '>'] s
    .comment c :: tokensFrom fuel r
  | fuel + 1, '<' :: s =>
    if !beginsMarkup s then
      let (t, r) := takeText s
      .text (resolve ('<' :: t)) :: tokensFrom fuel r
    else match s with
      | '/' :: s =>
        let name := nameOf (s.takeWhile (!endsName ·))
        .closing name :: tokensFrom fuel ((splitFirst '>' s).2.getD [])
      | '!' :: '[' :: s => sectionToken s ++ tokensFrom fuel ((splitFirst '>' s).2.getD [])
      | '!' :: s | '?' :: s => tokensFrom fuel ((splitFirst '>' s).2.getD [])
      | s =>
        let (tag, closed, r) := takeOpening s
        if rawNames.contains tag.name && !closed then
          let (raw, r) := takeRaw tag.name r
          .opening tag false :: (textToken raw ++ tokensFrom fuel r)
        else .opening tag closed :: tokensFrom fuel r
  | fuel + 1, s =>
    let (t, r) := takeText s
    .text (resolve t) :: tokensFrom fuel r

/-- The tokens of markup. -/
def tokens (s : List Char) : List Token := tokensFrom (s.length + 1) s

end Harvest.Markup

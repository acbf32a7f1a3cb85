import Harvest.Css.Library
import Harvest.Css.Selector
import Harvest.Markup.Reference
import Harvest.Number.Numeral
import Harvest.Text.Blank
import Harvest.Text.Casing

/-
  The tokens of selectors.

  Comments count as blanks. Identifiers may hold escapes: a backslash with up to six hexadecimal digits and one blank
  behind them, or with any other character. `tokenAt?` takes the token in front of a text; where several kinds of token
  would do, it is the one whose rule comes first. A token can hold a number that is none: of no character, or of too many
  digits. Then it is a refusal.
-/
namespace Harvest.Css
open Text

/-- What follows a comment at the front of a text. -/
def afterComment? : List Char → Option (List Char)
  | '/' :: '*' :: s =>
    let rec close : List Char → Option (List Char)
      | '*' :: '/' :: r => some r
      | _ :: r => close r
      | [] => none
    close s
  | _ => none

/-- The text without blanks and comments in front; `fuel` bounds their number. -/
def skipGapsFrom : Nat → List Char → List Char
  | 0, s => s
  | fuel + 1, s =>
    match s with
    | [] => []
    | c :: r =>
      if isGap c then skipGapsFrom fuel r else
      match afterComment? (c :: r) with
      | some t => skipGapsFrom fuel t
      | none => c :: r

/-- The text without blanks and comments in front. -/
def skipGaps (s : List Char) : List Char := skipGapsFrom s.length s

/-! ## Identifiers and values -/

/-- A character that an identifier can begin with. -/
def beginsName (c : Char) : Bool := c.isAlpha || c == '_' || 0xa0 ≤ c.toNat

/-- A character that an identifier can go on with. -/
def continuesName (c : Char) : Bool := beginsName c || c.isDigit || c == '-'

/-- The character under a number; zero and numbers without a character are replaced. -/
def escapedChar (n : Nat) : Char := if n = 0 || !n.isValidChar then '\ufffd' else Char.ofNat n

/-- The rest behind one blank, a pair of return and line end counting as one. -/
def dropGap : List Char → List Char
  | '\r' :: '\n' :: s => s
  | c :: s => if isGap c then s else c :: s
  | [] => []

/-- What an escape stands for, behind the backslash, and the rest. -/
def takeEscape? : List Char → Option (Char × List Char)
  | [] => some ('\ufffd', [])
  | c :: s =>
    let ds := ((c :: s).takeWhile Url.isHex).take 6
    if !ds.isEmpty then some (escapedChar (Markup.valueIn 16 ds), dropGap ((c :: s).drop ds.length))
    else if c == '\n' || c == '\r' || c == '\x0c' then none
    else some (c, s)

/-- The characters of an identifier from a point on, and the rest; `fuel` bounds their number. -/
def takeNameFrom : Nat → List Char → List Char × List Char
  | 0, s => ([], s)
  | fuel + 1, s =>
    match s with
    | [] => ([], [])
    | '\\' :: r =>
      match takeEscape? r with
      | some (c, t) =>
        let (n, t) := takeNameFrom fuel t
        (c :: n, t)
      | none => ([], '\\' :: r)
    | c :: r =>
      if continuesName c then
        let (n, t) := takeNameFrom fuel r
        (c :: n, t)
      else ([], c :: r)

/-- Whether an identifier can begin here, signs in front apart. -/
def nameStarts : List Char → Bool
  | '\\' :: s => (takeEscape? s).isSome
  | c :: _ => beginsName c
  | [] => false

/-- An identifier and the rest. -/
def takeName? (s : List Char) : Option (List Char × List Char) :=
  match s with
  | '-' :: '-' :: _ => some (takeNameFrom s.length s)
  | '-' :: r => if nameStarts r then some (takeNameFrom s.length s) else none
  | _ => if nameStarts s then some (takeNameFrom s.length s) else none

/-- The content of a quotation up to its closing quote, and the rest; line ends must be escaped. -/
def takeQuotedFrom (quote : Char) : Nat → List Char → Option (List Char × List Char)
  | 0, _ => none
  | fuel + 1, s =>
    match s with
    | [] => none
    | '\\' :: '\r' :: '\n' :: r => takeQuotedFrom quote fuel r
    | '\\' :: c :: r =>
      if c == '\n' || c == '\r' || c == '\x0c' then takeQuotedFrom quote fuel r else
      match takeEscape? (c :: r) with
      | some (d, t) => (takeQuotedFrom quote fuel t).map fun (q, t) => (d :: q, t)
      | none => none
    | c :: r =>
      if c == quote then some ([], r)
      else if c == '\n' || c == '\r' || c == '\x0c' || c == '\\' then none
      else (takeQuotedFrom quote fuel r).map fun (q, t) => (c :: q, t)

/-- A value, quoted or an identifier, and the rest. -/
def takeValue? : List Char → Option (List Char × List Char)
  | '"' :: s => takeQuotedFrom '"' (s.length + 1) s
  | '\'' :: s => takeQuotedFrom '\'' (s.length + 1) s
  | s => takeName? s

/-- Values with commas between them, and the rest; `fuel` bounds their number. -/
def takeValuesFrom : Nat → List Char → Option (List (List Char) × List Char)
  | 0, _ => none
  | fuel + 1, s =>
    match takeValue? s with
    | none => none
    | some (v, r) =>
      match skipGaps r with
      | ',' :: t =>
        match takeValuesFrom fuel (skipGaps t) with
        | some (vs, t) => some (v :: vs, t)
        | none => some ([v], r)
      | _ => some ([v], r)

/-! ## Positions -/

/-- A sign and the rest. -/
def takeSign : List Char → Bool × List Char
  | '-' :: s => (true, s)
  | '+' :: s => (false, s)
  | s => (false, s)

/-- A number with a sign. -/
def signed (negative : Bool) (n : Nat) : Int := if negative then -(n : Int) else n

/-- The offset behind the letter of a formula: a sign and digits, or nothing. -/
def takeOffset (s : List Char) : Int × List Char :=
  match skipGaps s with
  | c :: r =>
    if c == '+' || c == '-' then
      let t := skipGaps r
      let ds := t.takeWhile Char.isDigit
      if ds.isEmpty then (0, s) else (signed (c == '-') (Markup.valueIn 10 ds), t.drop ds.length)
    else (0, s)
  | [] => (0, s)

/-- A formula for positions, `2n+1`, `even` or a number: step and offset, and the rest. -/
def takeFormula? (s : List Char) : Option ((Int × Int) × List Char) :=
  let (negative, r) := takeSign s
  let ds := r.takeWhile Char.isDigit
  let n := Markup.valueIn 10 ds
  match r.drop ds.length, ds.isEmpty with
  | c :: t, empty =>
    if c == 'n' || c == 'N' then
      let (offset, t) := takeOffset t
      some ((signed negative (if empty then 1 else n), offset), t)
    else if empty then word s
    else some ((0, signed negative n), c :: t)
  | [], true => word s
  | [], false => some ((0, signed negative n), [])
where
  /-- One of the two words. -/
  word (s : List Char) : Option ((Int × Int) × List Char) :=
    if lowerAscii (s.take 4) == "even".toList then some ((2, 0), s.drop 4)
    else if lowerAscii (s.take 3) == "odd".toList then some ((2, 1), s.drop 3)
    else none

/-! ## Tokens -/

/-- A token of a selector. -/
inductive Token where
  | refusal (fault : Fault)
  | close
  | simple (test : Simple)
  /-- A class of elements by name, such as `first-child`; `opened` says that arguments follow. -/
  | pseudo (name : String) (opened : Bool)
  /-- Positions among the siblings that a list which follows matches. -/
  | nthOf (positions : Positions)
  | pseudoElement
  | atRule
  /-- The name of an element, perhaps with a namespace in front. -/
  | name (space : Option String) (name : String)
  /-- A combinator, or a comma. -/
  | combine (combinator : Option Combinator)

/-- The kind of the fault of a number that is none. -/
def numberKind : String := "ValueError"

/-- Whether an escape in a text gives a number beyond the last character. -/
def escapesBeyond : List Char → Bool
  | '\\' :: c :: s => 0x10ffff < Markup.valueIn 16 (((c :: s).takeWhile Url.isHex).take 6) || escapesBeyond s
  | _ :: s => escapesBeyond s
  | [] => false

/-- How many digits the first number of a text has that has too many. -/
def tooManyDigits? (s : List Char) : Option Nat :=
  ((s.splitBy fun a b => a.isDigit == b.isDigit).find? fun r => r.all Char.isDigit && Numeral.maxDigits < r.length).map
    List.length

/-- What a text writes down up to some rest of it. -/
def upTo (s rest : List Char) : List Char := s.take (s.length - rest.length)

/-- The token of a formula, or the refusal of one with a number of too many digits. -/
def formulaToken (formula : List Char) (t : Token) : Token :=
  match tooManyDigits? formula with
  | some n => .refusal (.raised numberKind (Numeral.tooLongMessage n))
  | none => t

/-- A token, or the refusal of what is written for it. -/
def Token.checked (written : List Char) (t : Token) : Token :=
  match t with
  | .pseudoElement | .atRule | .close | .combine _ => t
  | _ => if escapesBeyond written then .refusal (.raised numberKind "chr() arg not in range(0x110000)") else t

/-- The name behind a colon, in lower case, and the rest. -/
def takePseudo? : List Char → Option (String × List Char)
  | ':' :: s => (takeName? s).map fun (n, r) => (String.ofList (lowerAscii n), r)
  | _ => none

/-- What follows blanks and a closing parenthesis. -/
def afterClose? (s : List Char) : Option (List Char) :=
  match skipGaps s with
  | ')' :: r => some r
  | _ => none

/-- What follows the word `of` with blanks around it. -/
def afterOf? (s : List Char) : Option (List Char) :=
  let t := skipGaps s
  if t.length < s.length && lowerAscii (t.take 2) == ['o', 'f'] then
    let r := t.drop 2
    let u := skipGaps r
    if u.length < r.length then some u else none
  else none

/-- The arguments of the pseudo-classes that have an own way to write them. -/
def specialToken? (name : String) (s : List Char) : Option (Token × List Char) :=
  let positions (fromEnd : Bool) (make : Positions → Simple) (list : Bool) : Option (Token × List Char) :=
    match takeFormula? s with
    | none => none
    | some ((a, b), r) =>
      let p : Positions := ⟨a, b, fromEnd⟩
      match afterClose? r with
      | some t => some (formulaToken (upTo s r) (.simple (make p)), t)
      | none => if list then (afterOf? r).map (formulaToken (upTo s r) (.nthOf p), ·) else none
  let values (make : List (List Char) → Simple) : Option (Token × List Char) :=
    match takeValuesFrom (s.length + 1) s with
    | none => none
    | some (vs, r) => (afterClose? r).map (.simple (make vs), ·)
  match name with
  | "contains" | "-soup-contains" => values fun vs => .containsText false (vs.map String.ofList)
  | "-soup-contains-own" => values fun vs => .containsText true (vs.map String.ofList)
  | "nth-child" => positions false .nthChild true
  | "nth-last-child" => positions true .nthChild true
  | "nth-of-type" => positions false .nthOfType false
  | "nth-last-of-type" => positions true .nthOfType false
  | "lang" => values fun _ => .never
  | "dir" =>
    match takeName? s with
    | some (d, r) =>
      if ["ltr", "rtl"].contains (String.ofList (lowerAscii d)) then (afterClose? r).map (.simple .never, ·) else none
    | none => none
  | _ => none

/-- A pseudo-class in front of a text. -/
def pseudoToken? (s : List Char) : Option (Token × List Char) :=
  match takePseudo? s with
  | none => none
  | some (name, r) =>
    match r with
    | '(' :: t =>
      let inside := skipGaps t
      match specialToken? name inside with
      | some found => some found
      | none => some (.pseudo name true, inside)
    | _ => some (.pseudo name false, r)

/-- A name or a star. -/
def takeNameOrStar? : List Char → Option (List Char × List Char)
  | '*' :: s => some (['*'], s)
  | s => takeName? s

/-- A namespace with its bar, perhaps empty, and the rest. -/
def takeSpace? (s : List Char) : Option (List Char × List Char) :=
  match s with
  | '|' :: r => some ([], r)
  | _ =>
    match takeNameOrStar? s with
    | some (n, '|' :: r) => some (n, r)
    | _ => none

/-- The name of an element in front of a text. -/
def nameToken? (s : List Char) : Option (Token × List Char) :=
  let spaced := (takeSpace? s).bind fun (space, r) =>
    (takeNameOrStar? r).map fun (n, t) => (Token.name (some (String.ofList space)) (String.ofList n), t)
  spaced.or ((takeNameOrStar? s).map fun (n, t) => (Token.name none (String.ofList n), t))

/-- The operator of a comparison and the rest. -/
def takeOperator? : List Char → Option ((String → Comparison) × List Char)
  | '=' :: s => some (.equals, s)
  | '!' :: '=' :: s => some (.differs, s)
  | '~' :: '=' :: s => some (.hasWord, s)
  | '|' :: '=' :: s => some (.dashed, s)
  | '^' :: '=' :: s => some (.begins, s)
  | '$' :: '=' :: s => some (.ends, s)
  | '*' :: '=' :: s => some (.contains, s)
  | _ => none

/-- What follows blanks and a closing bracket. -/
def afterBracket? (s : List Char) : Option (List Char) :=
  match skipGaps s with
  | ']' :: r => some r
  | _ => none

/-- A comparison with its closing bracket, whether it forgets case, and the rest. -/
def takeComparison? (s : List Char) : Option ((Comparison × Bool) × List Char) :=
  match takeOperator? (skipGaps s) with
  | none => (afterBracket? s).map ((.present, false), ·)
  | some (make, r) =>
    match takeValue? (skipGaps r) with
    | none => none
    | some (v, r) =>
      let c := make (String.ofList v)
      match afterBracket? r with
      | some t => some ((c, false), t)
      | none =>
        match skipGaps r with
        | f :: t =>
          if f == 'i' || f == 'I' then (afterBracket? t).map ((c, true), ·)
          else if f == 's' || f == 'S' then (afterBracket? t).map ((c, false), ·)
          else none
        | [] => none

/-- A test of an attribute, behind the opening bracket. -/
def attributeToken? (s : List Char) : Option (Token × List Char) :=
  let t := skipGaps s
  let rest (n r : List Char) : Option (Token × List Char) :=
    (takeComparison? r).map fun ((c, anyCase), u) => (.simple (.attribute (String.ofList n) c anyCase), u)
  let spaced := (takeSpace? t).bind fun (_, r) => (takeName? r).bind fun (n, r) => rest n r
  spaced.or ((takeName? t).bind fun (n, r) => rest n r)

/-- The combinator that a character writes. -/
def combinatorOf? : Char → Option (Option Combinator)
  | ',' => some none
  | '>' => some (some .child)
  | '+' => some (some .next)
  | '~' => some (some .later)
  | _ => none

/-- A combinator in front of a text, with the blanks around it. -/
def combineToken? (s : List Char) : Option (Token × List Char) :=
  let t := skipGaps s
  match t with
  | c :: r =>
    match combinatorOf? c with
    | some k => some (.combine k, skipGaps r)
    | none => if t.length < s.length then some (.combine (some .descendant), t) else none
  | [] => if t.length < s.length then some (.combine (some .descendant), t) else none

/-- An identifier behind a mark. -/
def markedToken? (make : String → Simple) (s : List Char) : Option (Token × List Char) :=
  (takeName? s).map fun (n, r) => (.simple (make (String.ofList n)), r)

/-- The token in front of a text, whatever its numbers are. -/
def anyTokenAt? (s : List Char) : Option (Token × List Char) :=
  match afterClose? s with
  | some r => some (.close, r)
  | none =>
    match s with
    | ':' :: ':' :: r => (takeName? r).map fun (_, t) => (.pseudoElement, t)
    | ':' :: _ => pseudoToken? s
    | '&' :: r => some (.simple .scope, r)
    | '@' :: r =>
      if (r.head?.map Char.toLower) == some 'p' then (takeName? (r.drop 1)).map fun (_, t) => (.atRule, t) else none
    | '#' :: r => markedToken? .id r
    | '.' :: r => markedToken? .ofClass r
    | '[' :: r => attributeToken? r
    | _ => (nameToken? s).or (combineToken? s)

/-- The token in front of a text. -/
def tokenAt? (s : List Char) : Option (Token × List Char) :=
  (anyTokenAt? s).map fun (t, r) => (t.checked (upTo s r), r)

end Harvest.Css

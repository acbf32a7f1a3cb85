import Harvest.Text.Search
import Harvest.Url.Host

/-
  Character references: `&amp;` and its like, and numbers such as `&#8364;` or `&#x20ac;`.

  Numbers from 128 to 159 mean the characters of the Windows code page, as pages have always used them. What is no
  reference stays as it is written.
-/
namespace Harvest.Markup

/-- The references by name. -/
def namedReferences : List (String × Char) :=
  [("amp", '&'), ("lt", '<'), ("gt", '>'), ("quot", '"'), ("nbsp", '\u00a0'), ("copy", '©'), ("euro", '€'),
   ("hellip", '…')]

/-- The characters of the Windows code page from 128 on; zero where there is none. -/
def codePage : List Nat :=
  [0x20ac, 0, 0x201a, 0x192, 0x201e, 0x2026, 0x2020, 0x2021, 0x2c6, 0x2030, 0x160, 0x2039, 0x152, 0, 0x17d, 0,
   0, 0x2018, 0x2019, 0x201c, 0x201d, 0x2022, 0x2013, 0x2014, 0x2dc, 0x2122, 0x161, 0x203a, 0x153, 0, 0x17e, 0x178]

/-- The character of the Windows code page under a number below 256. -/
def codePageChar (n : Nat) : Char :=
  match codePage[n - 0x80]? with
  | some 0 | none => Char.ofNat n
  | some m => if n < 0x80 then Char.ofNat n else Char.ofNat m

/-- The character that a number refers to. -/
def numberedChar (n : Nat) : Char :=
  if n = 0 || !n.isValidChar then '\ufffd' else if n < 256 then codePageChar n else Char.ofNat n

/-- The value of a hexadecimal digit. -/
def hexValue (c : Char) : Nat := if c.isDigit then c.toNat - 48 else if c.toNat < 97 then c.toNat - 55 else c.toNat - 87

/-- The number that digits write down in a base. -/
def valueIn (base : Nat) (ds : List Char) : Nat := ds.foldl (fun n d => base * n + hexValue d) 0

/-- A numeric reference: its character and how many characters of digits and of a semicolon behind them it takes. -/
def numbered? (base : Nat) (isDigit : Char → Bool) (s : List Char) : Option (Char × Nat) :=
  let ds := s.takeWhile isDigit
  if ds.isEmpty then none else
  let closed := if (s.drop ds.length).head? == some ';' then 1 else 0
  some (numberedChar (valueIn base ds), ds.length + closed)

/-- The reference that follows an ampersand: its character and its length. -/
def reference? : List Char → Option (Char × Nat)
  | '#' :: 'x' :: s => (numbered? 16 Url.isHex s).map fun (c, n) => (c, n + 2)
  | '#' :: 'X' :: s => (numbered? 16 Url.isHex s).map fun (c, n) => (c, n + 2)
  | '#' :: s => (numbered? 10 Char.isDigit s).map fun (c, n) => (c, n + 1)
  | s =>
    let name := s.takeWhile Char.isAlphanum
    if (s.drop name.length).head? == some ';' then
      (namedReferences.lookup (String.ofList name)).map (·, name.length + 1)
    else none

/-- A text with its references resolved; `skip` characters still belong to the reference just met. -/
def resolveFrom : Nat → List Char → List Char
  | _, [] => []
  | skip + 1, _ :: s => resolveFrom skip s
  | 0, '&' :: s =>
    match reference? s with
    | some (c, n) => c :: resolveFrom n s
    | none => '&' :: resolveFrom 0 s
  | 0, c :: s => c :: resolveFrom 0 s

/-- A text with its references resolved. -/
def resolve (s : List Char) : List Char := resolveFrom 0 s

end Harvest.Markup

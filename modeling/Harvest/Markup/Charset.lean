import Harvest.Markup.Reference
import Harvest.Regex.Reader
import Harvest.Regex.Match

/-
  From bytes to text.

  A mark at the front tells UTF-8. Else the encoding that a page declares is tried, then UTF-8, and last the Windows
  code page, which reads anything.
-/
namespace Harvest.Markup
open Text

/-- Encodings that can be declared. -/
inductive Encoding where
  | utf8
  | latin
  | codePage
  | ascii
  deriving DecidableEq, Repr

namespace Encoding

/-- The encoding of a name. -/
def named? (name : String) : Option Encoding :=
  let plain := (lowerAscii name.toList).filter fun c => c != '-' && c != '_'
  match String.ofList plain with
  | "utf8" | "u8" => some .utf8
  | "iso88591" | "latin1" | "latin" | "l1" | "cp819" => some .latin
  | "windows1252" | "cp1252" => some .codePage
  | "ascii" | "usascii" => some .ascii
  | _ => none

/-- Bytes as characters of the same numbers. -/
def widen (bytes : ByteArray) : List Char := bytes.toList.map fun b => Char.ofNat b.toNat

/-- Whether the Windows code page has a character under a number. -/
def inCodePage (c : Char) : Bool := c.toNat < 0x80 || Markup.codePage[c.toNat - 0x80]? != some 0

/-- The text that bytes spell in an encoding. -/
def decode? (bytes : ByteArray) : Encoding → Option String
  | utf8 => String.fromUTF8? bytes
  | latin => some (String.ofList (widen bytes))
  | codePage =>
    let cs := widen bytes
    if cs.all inCodePage then some (String.ofList (cs.map fun c => codePageChar c.toNat)) else none
  | ascii =>
    let cs := widen bytes
    if cs.all (·.toNat < 0x80) then some (String.ofList cs) else none

/-- Where a page declares its encoding. -/
def declaration : String := "(?ia)<\\s*meta[^>]+charset\\s*=\\s*[\"']?([^>]*?)[ /;'\">]"

/-- The encoding that a page declares. -/
def declared? (bytes : ByteArray) : Option Encoding :=
  match Regex.Expression.read declaration with
  | .error _ => none
  | .ok e =>
    match e.search? true [] (widen (bytes.extract 0 2048)) with
    | none => none
    | some (_, p) => (p.group? 1).bind fun s => named? (String.ofList s)

end Encoding

/-- The text of the bytes of a page. -/
def decodePage (bytes : ByteArray) : String :=
  match bytes.toList with
  | 0xef :: 0xbb :: 0xbf :: _ => (Encoding.utf8.decode? (bytes.extract 3 bytes.size)).getD ""
  | _ =>
    match (Encoding.declared? bytes).bind (Encoding.decode? bytes), Encoding.utf8.decode? bytes with
    | some s, _ => s
    | none, some s => s
    | none, none => String.ofList ((Encoding.widen bytes).map fun c => codePageChar c.toNat)

end Harvest.Markup

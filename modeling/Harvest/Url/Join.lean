import Harvest.Url.Host
import Harvest.Text.Casing
import Harvest.Text.Quoted

/-
  Resolving a reference against a base address.

    1. `split` takes an address apart, after dropping control characters in front and line controls anywhere.
    2. `Parts.text` puts it together again.
    3. `join base reference` is the address that the reference means at the base: dot segments are removed, and an
       address that is whole, or of another scheme, is taken as it is.
-/
namespace Harvest.Url
open Harvest.Text

/-- Why a text is no address. -/
inductive Fault where
  | unbalancedBrackets
  | host (fault : HostFault) (name : String)
  | compatibility (place : String)
  deriving DecidableEq, Repr

/-- The text of a fault. -/
def Fault.message : Fault → String
  | .unbalancedBrackets => "Invalid IPv6 URL"
  | .host .notAddress name => quotedString name ++ " does not appear to be an IPv4 or IPv6 address"
  | .host .versionFour _ => "An IPv4 address cannot be in brackets"
  | .host .futureVersion _ => "IPvFuture address is invalid"
  | .compatibility place => "netloc '" ++ place ++ "' contains invalid characters under NFKC normalization"

/-- An address taken apart. -/
structure Parts where
  scheme : List Char
  place : List Char
  path : List Char
  params : List Char
  query : List Char
  fragment : List Char

/-- Schemes whose references may be relative; the empty one is no scheme. -/
def relativeSchemes : List String :=
  ["", "ftp", "http", "gopher", "nntp", "imap", "wais", "file", "https", "shttp", "mms", "prospero", "rtsp", "rtsps",
   "rtspu", "sftp", "svn", "svn+ssh", "ws", "wss"]

/-- Schemes whose addresses name a place on the network. -/
def placeSchemes : List String :=
  ["", "ftp", "http", "gopher", "nntp", "telnet", "imap", "wais", "file", "mms", "https", "shttp", "snews", "prospero",
   "rtsp", "rtsps", "rtspu", "rsync", "svn", "svn+ssh", "sftp", "nfs", "git", "git+ssh", "ws", "wss"]

/-- Schemes whose paths may carry parameters. -/
def paramSchemes : List String :=
  ["", "ftp", "hdl", "prospero", "http", "imap", "https", "shttp", "rtsp", "rtsps", "rtspu", "sip", "sips", "mms",
   "sftp", "tel"]

/-- Whether a scheme stands in a list. -/
def among (schemes : List String) (s : List Char) : Bool := schemes.contains (String.ofList s)

/-- Without control characters and spaces in front, and without tabs and line ends. -/
def clean (s : List Char) : List Char :=
  (s.dropWhile (·.toNat ≤ 0x20)).filter fun c => c != '\t' && c != '\r' && c != '\n'

/-- A character of a scheme. -/
def isSchemeChar (c : Char) : Bool := c.isAlphanum || c == '+' || c == '-' || c == '.'

/-- The scheme of an address, in lower case, and the rest; `default` where it has none. -/
def takeScheme (default s : List Char) : List Char × List Char :=
  match splitFirst ':' s with
  | (c :: front, some rest) =>
    if c.isAlpha && (c :: front).all isSchemeChar then (lowerAscii (c :: front), rest) else (default, s)
  | _ => (default, s)

/-- Characters whose compatibility form holds a delimiter of addresses. -/
def compatibilityDelimiters : List Nat :=
  [0x2047, 0x2048, 0x2049, 0x2100, 0x2101, 0x2105, 0x2106, 0x2a74, 0xfe13, 0xfe16, 0xfe55, 0xfe56, 0xfe5f, 0xfe6b,
   0xff03, 0xff0f, 0xff1a, 0xff1f, 0xff20]

/-- The host between brackets, and whether the brackets are balanced. -/
def bracketFault? (place : List Char) : Option Fault :=
  let opened := place.contains '['
  let closed := place.contains ']'
  if opened != closed then some .unbalancedBrackets
  else if opened then
    let inside := ((splitFirst '[' place).2).getD []
    let host := (splitFirst ']' inside).1
    (hostFault? host).map fun f => .host f (String.ofList host)
  else none

/-- The place of an address, if two slashes introduce one, and the rest. -/
def takePlace : List Char → Except Fault (List Char × List Char)
  | '/' :: '/' :: s =>
    let isEnd (c : Char) : Bool := c == '/' || c == '?' || c == '#'
    let place := s.takeWhile (!isEnd ·)
    match bracketFault? place with
    | some f => .error f
    | none => .ok (place, s.dropWhile (!isEnd ·))
  | s => .ok ([], s)

/-- The parameters at the end of a path. -/
def takeParams (scheme path : List Char) : List Char × List Char :=
  if !among paramSchemes scheme || !path.contains ';' then (path, []) else
  match splitLast '/' path with
  | none => let (p, q) := splitFirst ';' path; (p, q.getD [])
  | some (front, last) =>
    match splitFirst ';' last with
    | (_, none) => (path, [])
    | (p, some q) => (front ++ '/' :: p, q)

/-- An address taken apart; `default` is the scheme of an address without one. -/
def split (default address : List Char) : Except Fault Parts := do
  let (scheme, rest) := takeScheme default (clean address)
  let (place, rest) ← takePlace rest
  let (rest, fragment) := splitFirst '#' rest
  let (path, query) := splitFirst '?' rest
  if place.any fun c => compatibilityDelimiters.contains c.toNat then throw (.compatibility (String.ofList place))
  let (path, params) := takeParams scheme path
  return ⟨scheme, place, path, params, query.getD [], fragment.getD []⟩

/-- A delimiter and a text, unless the text is empty. -/
def behind (delimiter : Char) (s : List Char) : List Char := if s.isEmpty then [] else delimiter :: s

/-- An address put together. -/
def Parts.text (u : Parts) : List Char :=
  let path := u.path ++ behind ';' u.params
  let placed :=
    if !u.place.isEmpty || (!u.scheme.isEmpty && among placeSchemes u.scheme) || startsWith ['/', '/'] path then
      let path := if !path.isEmpty && path.head? != some '/' then '/' :: path else path
      '/' :: '/' :: (u.place ++ path)
    else path
  (if u.scheme.isEmpty then [] else u.scheme ++ [':']) ++ placed ++ behind '?' u.query ++ behind '#' u.fragment

/-- Segments with the dot segments resolved; `done` holds the ones kept, the last one first. -/
def resolveDots (done : List (List Char)) : List (List Char) → List (List Char)
  | [] => done.reverse
  | s :: ss =>
    if s = ['.', '.'] then resolveDots (done.drop 1) ss
    else if s = ['.'] then resolveDots done ss
    else resolveDots (s :: done) ss

/-- Without empty segments between the first and the last. -/
def dropInnerEmpty : List (List Char) → List (List Char)
  | [] => []
  | [s] => [s]
  | s :: ss => s :: (ss.dropLast.filter (!·.isEmpty) ++ [ss.getLastD []])

/-- The path of a reference at the path of a base. -/
def joinPath (base path : List Char) : List Char :=
  let baseParts := cutAt '/' base
  let baseParts := if (baseParts.getLastD []).isEmpty then baseParts else baseParts.dropLast
  let segments :=
    if path.head? = some '/' then cutAt '/' path else dropInnerEmpty (baseParts ++ cutAt '/' path)
  let resolved := resolveDots [] segments
  let last := segments.getLastD []
  let resolved := if last = ['.'] || last = ['.', '.'] then resolved ++ [[]] else resolved
  let joined := Text.join ['/'] resolved
  if joined.isEmpty then ['/'] else joined

/-- The address that a reference means at a base. -/
def join (base reference : List Char) : Except Fault (List Char) := do
  if base.isEmpty then return reference
  if reference.isEmpty then return base
  let b ← split [] base
  let r ← split b.scheme reference
  if r.scheme != b.scheme || !among relativeSchemes r.scheme then return reference
  if among placeSchemes r.scheme && !r.place.isEmpty then return r.text
  let r := if among placeSchemes r.scheme then { r with place := b.place } else r
  if r.path.isEmpty && r.params.isEmpty then
    return Parts.text { r with path := b.path, params := b.params, query := if r.query.isEmpty then b.query else r.query }
  return Parts.text { r with path := joinPath b.path r.path }

end Harvest.Url

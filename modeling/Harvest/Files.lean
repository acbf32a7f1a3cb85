import Harvest.Text.Search
import Harvest.Text.Quoted

/-
  Files, by their paths from a working directory or from the root.

  Directories are those that the files stand in. What lies above the working directory is not known.
    1. `Path.ofText` reads a path. Empty names and single dots in it do not count.
    2. `Files.find` says what is found at a path.
    3. `Files.readText` is the text of a file, every line end written as one line feed.
-/
namespace Harvest

/-- A path. -/
structure Path where
  fromRoot : Bool
  names : List String
  deriving DecidableEq, Repr

namespace Path
open Text

/-- The path that a text writes down. -/
def ofText (s : String) : Path :=
  let names := ((cutAt '/' s.toList).map String.ofList).filter fun n => !n.isEmpty && n != "."
  ⟨s.startsWith "/", names⟩

/-- A path as text. -/
def text (p : Path) : String :=
  let body := "/".intercalate p.names
  if p.fromRoot then "/" ++ body else if p.names.isEmpty then "." else body

/-- The part of the last name from its last point on, unless the point begins or ends the name. -/
def suffix (p : Path) : String :=
  match p.names.getLast?.bind fun n => splitLast '.' n.toList with
  | some (_ :: _, ext@(_ :: _)) => String.ofList ('.' :: ext)
  | _ => ""

/-- The longest name that a file can have, in bytes. -/
def maxName : Nat := 255

/-- The longest path, in bytes. -/
def maxPath : Nat := 4095

end Path

/-- Files: their paths and their bytes. -/
abbrev Files := List (Path × ByteArray)

/-- What is found at a path. -/
inductive Found where
  | file (bytes : ByteArray)
  | directory
  | missing
  /-- A file stands where a directory has to. -/
  | notDirectory
  | nameTooLong
  /-- The path holds a character that no path can hold. -/
  | badPath

/-- Why the text of a file cannot be read. -/
inductive FileFault where
  | missing (path : String)
  | notDirectory (path : String)
  | isDirectory (path : String)
  | nameTooLong (path : String)
  | badPath
  /-- The bytes are not UTF-8. -/
  | encoding
  deriving DecidableEq, Repr

namespace FileFault

/-- The text of a fault. -/
def message : FileFault → String
  | missing p => "[Errno 2] No such file or directory: " ++ Text.quotedString p
  | notDirectory p => "[Errno 20] Not a directory: " ++ Text.quotedString p
  | isDirectory p => "[Errno 21] Is a directory: " ++ Text.quotedString p
  | nameTooLong p => "[Errno 36] File name too long: " ++ Text.quotedString p
  | badPath => "embedded null byte"
  | encoding => "invalid start byte"

/-- The name of the kind of a fault. -/
def kind : FileFault → String
  | missing _ => "FileNotFoundError"
  | notDirectory _ => "NotADirectoryError"
  | isDirectory _ => "IsADirectoryError"
  | nameTooLong _ => "OSError"
  | badPath => "ValueError"
  | encoding => "UnicodeDecodeError"

/-- Whether nothing is found. -/
def isMissing : FileFault → Bool
  | missing _ => true
  | _ => false

/-- Whether the file system is at fault, not the path or the bytes. -/
def isSystem : FileFault → Bool
  | badPath | encoding => false
  | _ => true

end FileFault

namespace Files

/-- A directory on the way along a path. -/
inductive Way where
  /-- Below the working directory or the root, the innermost name first. -/
  | below (fromRoot : Bool) (names : List String)
  | elsewhere

/-- Whether a path is a directory: one to begin at, or one that some file stands below. -/
def isDirectory (fs : Files) (p : Path) : Bool :=
  p.names.isEmpty || fs.any fun (q, _) =>
    q.fromRoot == p.fromRoot && p.names.length < q.names.length && q.names.take p.names.length == p.names

/-- What is found at a path that goes down only. -/
def look (fs : Files) (p : Path) : Found :=
  match fs.lookup p with
  | some bytes => .file bytes
  | none => if fs.isDirectory p then .directory else .missing

/-- What is found along the rest of a path from a directory on. -/
def follow (fs : Files) : Way → List String → Found
  | _, [] => .directory
  | way, n :: ns =>
    if n == ".." then
      match way with
      | .below fromRoot (_ :: outer) => follow fs (.below fromRoot outer) ns
      | .below true [] => follow fs (.below true []) ns
      | _ => follow fs .elsewhere ns
    else if Path.maxName < n.utf8ByteSize then .nameTooLong
    else
      match way with
      | .elsewhere => .missing
      | .below fromRoot outer =>
        match fs.look ⟨fromRoot, (n :: outer).reverse⟩, ns with
        | .directory, _ => follow fs (.below fromRoot (n :: outer)) ns
        | found, [] => found
        | .file _, _ :: _ => .notDirectory
        | found, _ => found

/-- What is found at a path. A file that is given under this very path is found there. -/
def find (fs : Files) (p : Path) : Found :=
  if p.text.contains '\x00' then .badPath
  else if Path.maxPath < p.text.utf8ByteSize then .nameTooLong
  else
    match fs.lookup p with
    | some bytes => .file bytes
    | none => follow fs (.below p.fromRoot []) p.names

/-- Every line end as one line feed. -/
def plainLines : List Char → List Char
  | '\r' :: '\n' :: s => '\n' :: plainLines s
  | c :: s => (if c == '\r' then '\n' else c) :: plainLines s
  | [] => []

/-- The text of a file. -/
def readText (fs : Files) (p : Path) : Except FileFault String :=
  match fs.find p with
  | .file bytes =>
    match String.fromUTF8? bytes with
    | some s => .ok (String.ofList (plainLines s.toList))
    | none => .error .encoding
  | .directory => .error (.isDirectory p.text)
  | .missing => .error (.missing p.text)
  | .notDirectory => .error (.notDirectory p.text)
  | .nameTooLong => .error (.nameTooLong p.text)
  | .badPath => .error .badPath

end Files
end Harvest

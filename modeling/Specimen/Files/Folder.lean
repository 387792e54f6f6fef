import Specimen.Files.Path

/-!
# Files in folders

The files that a program may read and write, as a tree of folders with the one that relative paths
begin at. Following a path fails at the first part that does not exist or is no folder.
-/

namespace Specimen

/-- Why a file cannot be read or written. -/
inductive FileError where
  | notFound
  | notAFolder
  | isAFolder
  /-- A name has more bytes than a name may have. -/
  | nameTooLong
  /-- A path holds the character with number zero. -/
  | zeroInPath
  /-- The bytes of a file are no text. -/
  | notText
  /-- Anything else that the system reports. -/
  | other (details : String)
  deriving DecidableEq, Repr

namespace FileError

def message : FileError → String
  | notFound => "No such file or directory (os error 2)"
  | notAFolder => "Not a directory (os error 20)"
  | isAFolder => "Is a directory (os error 21)"
  | nameTooLong => "File name too long (os error 36)"
  | zeroInPath => "file name contained an unexpected NUL byte"
  | notText => "stream did not contain valid UTF-8"
  | other details => details

end FileError

/-- A file or a folder. -/
inductive FileNode where
  | file (bytes : ByteArray)
  | folder (entries : List (String × FileNode))

namespace FileNode

/-- An empty folder. -/
def emptyFolder : FileNode :=
  .folder []

/-- The entries of a folder. -/
def entries? : FileNode → Option (List (String × FileNode))
  | .file _ => none
  | .folder entries => some entries

/-- The entry of a name. -/
def child? (node : FileNode) (name : String) : Option FileNode :=
  node.entries?.bind (·.lookup name)

/-- The node that names lead to. -/
def descendant? (node : FileNode) : List String → Option FileNode
  | [] => some node
  | name :: names => (node.child? name).bind (·.descendant? names)

/-- The entries with a node in place of the one of a name, or at the end. -/
def putEntry (name : String) (node : FileNode) :
    List (String × FileNode) → List (String × FileNode)
  | [] => [(name, node)]
  | (n, other) :: rest =>
    if n = name then (n, node) :: rest else (n, other) :: putEntry name node rest

/-- The tree with a node put where names lead to, in folders that are made as needed. -/
def put (node : FileNode) (new : FileNode) : List String → FileNode
  | [] => new
  | name :: names =>
    let entries := node.entries?.getD []
    let child := (entries.lookup name).getD emptyFolder
    .folder (putEntry name (child.put new names) entries)

end FileNode

/-- A tree of files with a folder in which a program works. -/
structure FileTree where
  root : FileNode
  /-- The names that lead from the root to the folder. -/
  workingFolder : List String

namespace FileTree

/-- The most bytes that a name may have. -/
def longestName : Nat := 255

/-- The names that lead to where parts lead from a place, whose own names are given in reverse. All
but the last part must lead to something. -/
def followFrom (root : FileNode) : List String → List PathPart → Except FileError (List String)
  | place, [] => .ok place.reverse
  | place, part :: parts =>
    match root.descendant? place.reverse with
    | none => .error .notFound
    | some (.file _) => .error .notAFolder
    | some (.folder _) =>
      match part with
      | .parent => followFrom root place.tail parts
      | .name s =>
        if longestName < (String.ofList s).utf8ByteSize then .error .nameTooLong
        else followFrom root (String.ofList s :: place) parts

/-- The least number of bytes that a path must not have. -/
def tooLongPath : Nat := 4096

/-- The names that a path leads to, which need not lead to anything themselves. -/
def follow (t : FileTree) (path : String) : Except FileError (List String) :=
  if path.toList.contains '\x00' then .error .zeroInPath
  else if tooLongPath ≤ path.utf8ByteSize then .error .nameTooLong
  else if path.isEmpty then .error .notFound
  else
    let place := if Path.isAbsolute path then [] else t.workingFolder.reverse
    followFrom t.root place (Path.parts path)

def endsWithSlash (path : String) : Bool :=
  path.toList.getLast? == some '/'

/-- Whether the last thing that a path names is a folder as the folder that it is, by a single
point. -/
def endsWithPoint (path : String) : Bool :=
  ((Path.pieces path).filter (!·.isEmpty)).getLast? == some ['.']

def read (t : FileTree) (path : String) : Except FileError ByteArray := do
  let place ← t.follow path
  match t.root.descendant? place with
  | none => .error .notFound
  | some (.folder _) => .error .isAFolder
  | some (.file bytes) =>
    if endsWithSlash path || endsWithPoint path then .error .notAFolder else .ok bytes

/-- The tree with a text as the contents of the file at a path, which is made if it does not exist.
-/
def write (t : FileTree) (path : String) (text : String) : Except FileError FileTree := do
  let place ← t.follow path
  match t.root.descendant? place with
  | some (.folder _) => .error .isAFolder
  | node =>
    if endsWithPoint path then .error (if node.isSome then .notAFolder else .notFound)
    else if endsWithSlash path then .error .isAFolder
    else .ok { t with root := t.root.put (.file text.toUTF8) place }

end FileTree

/-- The text that the bytes of a file hold. -/
def textOfBytes (bytes : ByteArray) : Except FileError String :=
  match String.fromUTF8? bytes with
  | some text => .ok text
  | none => .error .notText

end Specimen

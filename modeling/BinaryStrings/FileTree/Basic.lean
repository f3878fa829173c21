import BinaryStrings.Bytes
import BinaryStrings.Text.Quoted
import BinaryStrings.Text.Split
import BinaryStrings.Text.Utf8

/-!
# File trees

A file tree has a node at the places of its files, directories and symbolic links.  A place is the
list of names from the root; the directories on the way to a node are nodes themselves.  Relative
paths start at the current directory.

A file may be closed to the program, which then sees that it is there but can neither read nor write it.
Directories are open, and names have a greatest length but whole paths have none: that a directory may
not be searched, or that a path is too long, is left out.
-/

namespace BinaryStrings

/-- What can stand at a place. -/
inductive FileNode where
  | file (data : Bytes)
  /-- A file that the program may not open. -/
  | closed
  | directory
  | link (target : String)
  deriving DecidableEq, Repr

/-- A place: the names from the root. -/
abbrev Place := List String

/-- Why an access to a path fails. -/
inductive FileError where
  | noSuchFile
  | permissionDenied
  | notDirectory
  | isDirectory
  | nameTooLong
  | tooManyLinks
  deriving DecidableEq, Repr

namespace FileError

/-- The number of an error. -/
def number : FileError → Nat
  | noSuchFile => 2
  | permissionDenied => 13
  | notDirectory => 20
  | isDirectory => 21
  | nameTooLong => 36
  | tooManyLinks => 40

/-- The wording of an error. -/
def wording : FileError → String
  | noSuchFile => "No such file or directory"
  | permissionDenied => "Permission denied"
  | notDirectory => "Not a directory"
  | isDirectory => "Is a directory"
  | nameTooLong => "File name too long"
  | tooManyLinks => "Too many levels of symbolic links"

/-- The message of an error about a path. -/
def message (error : FileError) (path : String) : String :=
  s!"[Errno {error.number}] {error.wording}: " ++ Text.quoted path

/-- The class of an error. -/
def kind : FileError → String
  | noSuchFile => "FileNotFoundError"
  | permissionDenied => "PermissionError"
  | notDirectory => "NotADirectoryError"
  | isDirectory => "IsADirectoryError"
  | nameTooLong => "OSError"
  | tooManyLinks => "OSError"

end FileError

/-- What opening a node as a file comes to; none if it is no file. -/
def FileNode.opened? : FileNode → Option (Except FileError Bytes)
  | file data => some (.ok data)
  | closed => some (.error .permissionDenied)
  | directory => none
  | link _ => none

/-- Files, directories and links by their places. -/
structure FileTree where
  current : Place
  nodes : List (Place × FileNode)
  deriving DecidableEq, Repr

namespace FileTree

/-- A tree with nothing in it but the current directory. -/
def empty (current : Place) : FileTree :=
  ⟨current, [(current, .directory)]⟩

/-- The node at a place. -/
def nodeAt? (tree : FileTree) (place : Place) : Option FileNode :=
  if place.isEmpty then some .directory else tree.nodes.lookup place

/-- Takes the node at a place out of the tree. -/
def erase (tree : FileTree) (place : Place) : FileTree :=
  { tree with nodes := tree.nodes.filter (·.1 != place) }

/-- Puts a node at a place. -/
def putNode (tree : FileTree) (place : Place) (node : FileNode) : FileTree :=
  { tree with nodes := (place, node) :: tree.nodes.filter (·.1 != place) }

/-- Makes the directories on the way to a place. -/
def makeParents (tree : FileTree) (place : Place) : FileTree :=
  (List.range place.length).foldl (fun tree n =>
    let parent := place.take n
    if (tree.nodeAt? parent).isSome then tree else tree.putNode parent .directory) tree

/-- Puts a node at a place and makes the directories on the way. -/
def put (tree : FileTree) (place : Place) (node : FileNode) : FileTree :=
  (tree.makeParents place).putNode place node

end FileTree

/-! ## Paths -/

namespace Path

/-- The separator of names. -/
def separator : Char := '/'

/-- The null character, which no name in a tree has. -/
def null : Char := Char.ofNat 0

/-- Whether a path has a null character. -/
def hasNull (path : String) : Bool :=
  path.toList.contains null

/-- The message for a path with a null character, which the system does not take. -/
def nullMessage : String := "embedded null byte"

/-- The parts of a path between its separators. -/
def parts (path : String) : List String :=
  Text.split separator path

/-- Whether a path starts at the root. -/
def isRooted (path : String) : Bool :=
  path.toList.head? == some separator

/-- One name further: empty names and the dot stay, two dots go back. -/
def step (place : Place) (name : String) : Place :=
  if name.isEmpty || name == "." then place
  else if name == ".." then place.dropLast
  else place ++ [name]

/-- The place that names lead to without regard to links. -/
def lexical (start : Place) (names : List String) : Place :=
  names.foldl step start

/-- A place as a path from the root. -/
def ofPlace (place : Place) : String :=
  "/" ++ String.intercalate "/" place

/-- The place of a path without regard to links. -/
def place (current : Place) (path : String) : Place :=
  lexical (if isRooted path then [] else current) (parts path)

end Path

end BinaryStrings

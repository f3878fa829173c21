import BinaryStrings.FileTree.Basic

/-!
# Access by path

Following a path through the tree as an access does: links on the way are followed, up to a number
of them, every name but the last has to lead to a directory, and so has the last one if a separator
follows it.
-/

namespace BinaryStrings.FileTree

/-- An access follows at most this many links. -/
def mostLinks : Nat := 40

/-- Names have at most this many bytes. -/
def longestName : Nat := 255

/-- What an access finds: a place and the node there. -/
abbrev Found := Except FileError (Place × FileNode)

/-- Whether a name is longer than a tree can hold. -/
def isTooLong (name : String) : Bool :=
  longestName < (Utf8.encode name.toList).length

/-- Follows names from the directory `place`; `follow` goes on behind a link. -/
def followNames (tree : FileTree) (follow : Place → List String → Found) (place : Place) :
    List String → Found
  | [] => .ok (place, .directory)
  | name :: rest =>
    if name.isEmpty || name == "." then followNames tree follow place rest
    else if name == ".." then followNames tree follow place.dropLast rest
    else if isTooLong name then .error .nameTooLong
    else
      let next := place ++ [name]
      match tree.nodeAt? next with
      | none => .error .noSuchFile
      | some .directory => followNames tree follow next rest
      | some (.link target) =>
        follow (if Path.isRooted target then [] else place) (Path.parts target ++ rest)
      | some node => if rest.isEmpty then .ok (next, node) else .error .notDirectory

/-- Follows names from the directory `place` over at most `links` links. -/
def followLinks (tree : FileTree) : (links : Nat) → Place → List String → Found
  | 0 => followNames tree fun _ _ => .error .tooManyLinks
  | links + 1 => followNames tree (followLinks tree links)

/-- What stands at a path. -/
def find (tree : FileTree) (path : String) : Found :=
  if path.isEmpty then .error .noSuchFile
  else
    tree.followLinks mostLinks (if Path.isRooted path then [] else tree.current) (Path.parts path)

/-- What opening the file at a path comes to; none if there is no file. -/
def fileAt? (tree : FileTree) (path : String) : Option (Except FileError Bytes) :=
  match tree.find path with
  | .ok (_, node) => node.opened?
  | .error _ => none

/-- The contents of the file at a path. -/
def read (tree : FileTree) (path : String) : Except FileError Bytes :=
  match tree.find path with
  | .ok (_, node) => node.opened?.getD (.error .isDirectory)
  | .error error => .error error

/-- Whether there is a file at a path. -/
def isFile (tree : FileTree) (path : String) : Bool :=
  (tree.fileAt? path).isSome

end BinaryStrings.FileTree

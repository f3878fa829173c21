import BinaryStrings.FileTree.Basic

/-!
# Real paths

The real path of a path names the same place without links.  Names that lead nowhere are kept, two dots
go back one name, and where links lead in a circle the names from there on stay as they are.  A link met
before has the real path it had then.  Only a name with a null character keeps a path from having a real
path, unless links lead in a circle before it.
-/

namespace BinaryStrings.FileTree

/-- A path under way, from the root or from the current directory. -/
structure Head where
  rooted : Bool
  names : List String
  deriving DecidableEq, Repr

namespace Head

/-- The start of a relative path. -/
def here : Head := ⟨false, []⟩

/-- The start of a path from the root. -/
def root : Head := ⟨true, []⟩

/-- One name further. -/
def push (head : Head) (name : String) : Head :=
  { head with names := head.names ++ [name] }

/-- One name back.  Before the start of a relative path two dots are kept. -/
def pop (head : Head) : Head :=
  match head.names.getLast? with
  | none => if head.rooted then head else head.push ".."
  | some last => if last == ".." then head.push ".." else { head with names := head.names.dropLast }

/-- Whether the parts of a path, as text, start with a separator. -/
def isRootedRest : List String → Bool
  | "" :: _ :: _ => true
  | _ => false

/-- A path followed by the parts of another one, which is taken alone when it starts at the root. -/
def join (head : Head) (rest : List String) : Head :=
  if isRootedRest rest then ⟨true, rest⟩ else { head with names := head.names ++ rest }

/-- The place of a path. -/
def place (current : Place) (head : Head) : Place :=
  Path.lexical (if head.rooted then [] else current) head.names

end Head

/-- Links met before, with their real paths once these are known. -/
abbrev LinksSeen := List (Head × Option Head)

/-- A path under way, whether it goes on, and the links met. -/
structure Joined where
  head : Head
  free : Bool
  seen : LinksSeen
  deriving Repr

/-- Sets the real path of a link. -/
def LinksSeen.set (seen : LinksSeen) (link : Head) (real : Option Head) : LinksSeen :=
  (link, real) :: seen

/-- The target of the link at a path under way. -/
def linkAt? (tree : FileTree) (head : Head) : Option String :=
  match tree.nodeAt? (head.place tree.current) with
  | some (.link target) => some target
  | _ => none

/-- Goes over the parts of a path; `resolve` gives the real path of a link's target. -/
def joinParts (tree : FileTree) (resolve : LinksSeen → Head → String → Joined) :
    LinksSeen → Head → List String → Joined
  | seen, head, [] => ⟨head, true, seen⟩
  | seen, head, name :: rest =>
    if name.isEmpty || name == "." then joinParts tree resolve seen head rest
    else if name == ".." then joinParts tree resolve seen head.pop rest
    else
      let next := head.push name
      match tree.linkAt? next with
      | none => joinParts tree resolve seen next rest
      | some target =>
        match seen.lookup next with
        | some (some real) => joinParts tree resolve seen real rest
        | some none => ⟨next.join rest, false, seen⟩
        | none =>
          let inner := resolve (seen.set next none) head target
          if inner.free then
            joinParts tree resolve (inner.seen.set next (some inner.head)) inner.head rest
          else ⟨inner.head.join rest, false, inner.seen⟩

/-- Goes over a path behind another one, at most `depth` links deep. -/
def joinPath (tree : FileTree) : (depth : Nat) → LinksSeen → Head → String → Joined
  | 0, seen, head, path => ⟨head.join (Path.parts path), false, seen⟩
  | depth + 1, seen, head, path =>
    let start := if Path.isRooted path then .root else head
    joinParts tree (joinPath tree depth) seen start (Path.parts path)

/-- Whether there is a link at a place. -/
def isLinkAt (tree : FileTree) (place : Place) : Bool :=
  match tree.nodeAt? place with
  | some (.link _) => true
  | _ => false

/-- The places of the links. -/
def linkPlaces (tree : FileTree) : List Place :=
  ((tree.nodes.map (·.1)).filter tree.isLinkAt).eraseDups

/-- Links lead at most so deep.  A link is met again in another spelling of its place only: from the
root, or from the current directory or one of those above it. -/
def deepest (tree : FileTree) : Nat :=
  (tree.current.length + 2) * tree.linkPlaces.length + 1

/-- The place of a path behind all links. -/
def realPlace (tree : FileTree) (path : String) : Place :=
  (joinPath tree tree.deepest [] .here path).head.place tree.current

/-- The real path of a path. -/
def realPath (tree : FileTree) (path : String) : String :=
  Path.ofPlace (tree.realPlace path)

/-- Goes over the parts of a path in front of the first one with a null character. -/
def joinBeforeNull (tree : FileTree) (path : String) : Joined :=
  joinParts tree (joinPath tree tree.deepest) [] (if Path.isRooted path then .root else .here)
    ((Path.parts path).takeWhile fun name => !Path.hasNull name)

/-- Whether a path has a real path: no name with a null character is come to. -/
def hasRealPath (tree : FileTree) (path : String) : Bool :=
  !Path.hasNull path || !(tree.joinBeforeNull path).free

end BinaryStrings.FileTree

import BinaryStrings.FileTree.RealPath

/-!
# The sandbox

The server may be restricted to some directories.  A path is inside when its real path starts with
all the names of the real path of an allowed one; without a list there is no restriction.  Allowed paths
are looked up in turn, up to one that has no real path.
-/

namespace BinaryStrings.Server

/-- A path outside the allowed ones. -/
structure AccessDenied where
  path : String
  allowed : List String
  deriving DecidableEq, Repr

/-- The wording of the refusal. -/
def AccessDenied.message (denied : AccessDenied) : String :=
  let shown := Text.quotedList denied.allowed
  s!"Access denied: '{denied.path}' is outside the allowed paths. Allowed: {shown}. " ++
    "Configure with --allowed-paths at server startup."

namespace Sandbox

/-- Why a path is not let through. -/
inductive Refusal where
  | outside (denied : AccessDenied)
  /-- An allowed path has no real path. -/
  | noRealPath
  deriving DecidableEq, Repr

/-- The wording of a refusal. -/
def Refusal.message : Refusal → String
  | .outside denied => denied.message
  | .noRealPath => Path.nullMessage

/-- Whether the real path of `path` is that of `root` or below it. -/
def isWithin (tree : FileTree) (path root : String) : Bool :=
  (tree.realPlace root).isPrefixOf (tree.realPlace path)

/-- Whether a path is within one of some allowed ones, as far as these have real paths; none if one
without comes first. -/
def permits? (tree : FileTree) (path : String) : (roots : List String) → Option Bool
  | [] => some false
  | root :: rest =>
    if !tree.hasRealPath root then none
    else if isWithin tree path root then some true
    else permits? tree path rest

/-- Refuses a path outside the allowed ones.  The path is a real one, so that it has a real path. -/
def check (tree : FileTree) (allowed : Option (List String)) (path : String) :
    Except Refusal Unit :=
  match allowed with
  | none => .ok ()
  | some roots =>
    match permits? tree path roots with
    | some true => .ok ()
    | some false => .error (.outside ⟨path, roots⟩)
    | none => .error .noRealPath

end Sandbox

end BinaryStrings.Server

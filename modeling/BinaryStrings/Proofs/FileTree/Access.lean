import BinaryStrings.Proofs.FileTree.RealPath

/-!
# What an access and a real path depend on

An access by path ends where the path leads, so that it reaches the file at the real place of the
path.  Real paths depend on the links of a tree only, and an access on the directories, the links
and the one file that it reaches.

Main results:

- Theorem `leadsTo_of_find`: an access ends where the path leads.
- Theorem `SameShape.realPlace_eq`: trees with the same links have the same real paths.
- Theorem `SameShape.find_eq_file`: an access reaches the same file in a tree of the same shape.
-/

namespace BinaryStrings.FileTree

/-! ## Accesses follow paths -/

/-- The empty name and the dots are followed without a look at the tree. -/
theorem followNames_special (tree : FileTree) (follow : Place → List String → Found)
    (place : Place) {name : String} (rest : List String)
    (hname : (name.isEmpty || name == "." || name == "..") = true) :
    followNames tree follow place (name :: rest) =
      followNames tree follow (Path.step place name) rest := by
  rw [followNames, Path.step]
  by_cases hstay : name.isEmpty || name == "."
  · rw [if_pos hstay, if_pos hstay]
  · have hup : name == ".." := by simpa [hstay] using hname
    rw [if_neg hstay, if_neg hstay, if_pos hup, if_pos hup]

/-- Every other name is looked up in the tree. -/
theorem followNames_plain (tree : FileTree) (follow : Place → List String → Found)
    (place : Place) {name : String} (rest : List String)
    (hname : ¬ (name.isEmpty || name == "." || name == "..") = true) :
    followNames tree follow place (name :: rest) =
      if isTooLong name then .error .nameTooLong
      else
        match tree.nodeAt? (place ++ [name]) with
        | none => .error .noSuchFile
        | some .directory => followNames tree follow (place ++ [name]) rest
        | some (.link target) => follow (Path.origin place target) (Path.parts target ++ rest)
        | some node =>
          if rest.isEmpty then .ok (place ++ [name], node) else .error .notDirectory := by
  rw [Bool.or_eq_true, not_or] at hname
  rw [followNames, if_neg hname.1, if_neg hname.2]
  rfl

/-- An access that ends at a place: names lead there, and a file that it finds is at that place. -/
def EndsAt (tree : FileTree) (place : Place) (names : List String) (found : Place)
    (node : FileNode) : Prop :=
  (∃ steps, Resolves tree steps place names found) ∧
    (node.opened?.isSome → tree.nodeAt? found = some node)

/-- A name behind which there is no link leads one step on. -/
theorem EndsAt.step {tree : FileTree} {place found : Place} {name : String} {rest : List String}
    {node : FileNode} (hname : tree.linkBehind? place name = none)
    (h : tree.EndsAt (Path.step place name) rest found node) :
    tree.EndsAt place (name :: rest) found node := by
  obtain ⟨⟨steps, hsteps⟩, hfile⟩ := h
  exact ⟨⟨steps + 1, .step hname hsteps⟩, hfile⟩

/-- What is reached by names is where they end, if this holds of what follows a link. -/
theorem endsAt_of_followNames {tree : FileTree} {follow : Place → List String → Found}
    (hfollow : ∀ place names found node, follow place names = .ok (found, node) →
      tree.EndsAt place names found node)
    {place found : Place} {names : List String} {node : FileNode}
    (h : followNames tree follow place names = .ok (found, node)) :
    tree.EndsAt place names found node := by
  induction names generalizing place with
  | nil =>
    cases h
    exact ⟨⟨0, .done found⟩, nofun⟩
  | cons name rest ih =>
    by_cases hname : (name.isEmpty || name == "." || name == "..") = true
    · rw [followNames_special _ _ _ _ hname] at h
      exact .step (linkBehind?_of_special place hname) (ih h)
    · rw [followNames_plain _ _ _ _ hname] at h
      simp only [Bool.or_eq_true, String.isEmpty_iff, beq_iff_eq, not_or] at hname
      obtain ⟨⟨hempty, hdot⟩, hup⟩ := hname
      have hunlinked := linkBehind?_eq_none_iff tree place hempty hdot hup
      have hnext := Path.step_eq_append place hempty hdot hup
      split at h
      · cases h
      · split at h
        · cases h
        · rename_i hnode
          refine .step (hunlinked.2 (by simp [hnode])) ?_
          rw [hnext]
          exact ih h
        · rename_i target hnode
          obtain ⟨⟨steps, hsteps⟩, hfile⟩ := hfollow _ _ _ _ h
          obtain ⟨inner, more, behind, htarget, hrest⟩ := hsteps.split
          exact ⟨⟨inner + more + 1, .link
            ((linkBehind?_eq_some_iff tree place hempty hdot hup).2 hnode) htarget hrest⟩, hfile⟩
        · rename_i last _ hlink hnode
          split at h
          · rename_i hlast
            cases h
            obtain rfl := List.isEmpty_iff.1 hlast
            refine .step (hunlinked.2 fun target htarget => ?_) ?_
            · exact hlink target (Option.some.inj (hnode.symm.trans htarget))
            · rw [hnext]
              exact ⟨⟨0, .done _⟩, fun _ => hnode⟩
          · cases h

/-- What is reached through links is where the names end. -/
theorem endsAt_of_followLinks {tree : FileTree} {links : Nat} {place found : Place}
    {names : List String} {node : FileNode}
    (h : tree.followLinks links place names = .ok (found, node)) :
    tree.EndsAt place names found node := by
  induction links generalizing place names found node with
  | zero => exact endsAt_of_followNames (fun _ _ _ _ hfail => by cases hfail) h
  | succ links ih => exact endsAt_of_followNames (fun _ _ _ _ hfound => ih hfound) h

/-- An access ends where the path leads. -/
theorem leadsTo_of_find {tree : FileTree} {path : String} {place : Place} {node : FileNode}
    (h : tree.find path = .ok (place, node)) : tree.LeadsTo path place := by
  unfold find at h
  split at h
  · cases h
  · exact (endsAt_of_followLinks h).1

/-- A file that an access finds is at the place where the access ends. -/
theorem nodeAt?_of_find {tree : FileTree} {path : String} {place : Place} {node : FileNode}
    (hfile : node.opened?.isSome) (h : tree.find path = .ok (place, node)) :
    tree.nodeAt? place = some node := by
  unfold find at h
  split at h
  · cases h
  · exact (endsAt_of_followLinks h).2 hfile

/-! ## Trees of the same shape -/

/-- Two trees with the same current directory, the same directories and the same links. -/
structure SameShape (tree other : FileTree) : Prop where
  current_eq : tree.current = other.current
  directory_iff : ∀ place,
    tree.nodeAt? place = some .directory ↔ other.nodeAt? place = some .directory
  link_iff : ∀ place target,
    tree.nodeAt? place = some (.link target) ↔ other.nodeAt? place = some (.link target)

namespace SameShape

variable {tree other : FileTree}

theorem symm (h : SameShape tree other) : SameShape other tree where
  current_eq := h.current_eq.symm
  directory_iff := fun place => (h.directory_iff place).symm
  link_iff := fun place target => (h.link_iff place target).symm

/-- The current directory is settled in both trees. -/
theorem isSettled_current (h : SameShape tree other) (hcurrent : tree.IsSettled tree.current) :
    other.IsSettled other.current := by
  rw [← h.current_eq]
  refine ⟨hcurrent.plain, fun front hfront target hnode => ?_⟩
  exact hcurrent.unlinked front hfront target ((h.link_iff front target).2 hnode)

/-- Both trees have the same links. -/
theorem linkAt?_eq (h : SameShape tree other) (head : Head) :
    tree.linkAt? head = other.linkAt? head := by
  refine Option.ext fun target => ?_
  rw [linkAt?_eq_some_iff, linkAt?_eq_some_iff, h.link_iff, h.current_eq]

/-- So names are joined to the same paths, -/
theorem joinParts_eq (h : SameShape tree other)
    (resolve : LinksSeen → Head → String → Joined) (seen : LinksSeen) (head : Head)
    (names : List String) :
    joinParts tree resolve seen head names = joinParts other resolve seen head names := by
  induction names generalizing seen head with
  | nil => rfl
  | cons name rest ih =>
    simp only [joinParts, ih, h.linkAt?_eq]

/-- as are whole paths. -/
theorem joinPath_eq (h : SameShape tree other) (depth : Nat) (seen : LinksSeen) (head : Head)
    (path : String) : joinPath tree depth seen head path = joinPath other depth seen head path := by
  induction depth generalizing seen head path with
  | zero => rfl
  | succ depth ih =>
    have hresolve : joinPath tree depth = joinPath other depth := by
      funext seen head path
      exact ih seen head path
    simp only [joinPath, hresolve, h.joinParts_eq]

theorem deepest_eq (h : SameShape tree other) : tree.deepest = other.deepest := by
  have hplaces : tree.linkPlaces.Perm other.linkPlaces := by
    refine (List.perm_ext_iff_of_nodup (nodup_linkPlaces _) (nodup_linkPlaces _)).2 fun place => ?_
    rw [mem_linkPlaces_iff, mem_linkPlaces_iff]
    exact exists_congr fun target => h.link_iff place target
  rw [deepest, deepest, h.current_eq, hplaces.length_eq]

/-- Real paths depend on the links only. -/
theorem realPlace_eq (h : SameShape tree other) (path : String) :
    tree.realPlace path = other.realPlace path := by
  rw [realPlace, realPlace, h.deepest_eq, h.joinPath_eq, h.current_eq]

/-- A path has the same real path in both trees. -/
theorem realPath_eq (h : SameShape tree other) (path : String) :
    tree.realPath path = other.realPath path := by
  rw [realPath, realPath, h.realPlace_eq]

/-- Whether a path has a real path depends on the links only. -/
theorem hasRealPath_eq (h : SameShape tree other) (path : String) :
    tree.hasRealPath path = other.hasRealPath path := by
  have hresolve : joinPath tree tree.deepest = joinPath other other.deepest := by
    funext seen head text
    rw [h.deepest_eq, h.joinPath_eq]
  rw [hasRealPath, hasRealPath, joinBeforeNull, joinBeforeNull, hresolve, h.joinParts_eq]

section

variable {node : FileNode} {found : Place} (hisFile : node.opened?.isSome)
  (hnode : other.nodeAt? found = some node)

include hisFile hnode

/-- Following names reaches a file again that is there in both trees. -/
theorem followNames_eq_file (h : SameShape tree other) {follow follow' : Place → List String → Found}
    (hfollow : ∀ place names, follow place names = .ok (found, node) →
      follow' place names = .ok (found, node))
    {place : Place} {names : List String}
    (hfound : followNames tree follow place names = .ok (found, node)) :
    followNames other follow' place names = .ok (found, node) := by
  induction names generalizing place with
  | nil =>
    cases hfound
    cases hisFile
  | cons name rest ih =>
    by_cases hname : (name.isEmpty || name == "." || name == "..") = true
    · rw [followNames_special _ _ _ _ hname] at hfound ⊢
      exact ih hfound
    · rw [followNames_plain _ _ _ _ hname] at hfound ⊢
      split at hfound
      · cases hfound
      · rename_i hlong
        rw [if_neg hlong]
        split at hfound
        · cases hfound
        · rename_i hway
          rw [(h.directory_iff _).1 hway]
          exact ih hfound
        · rename_i target hway
          rw [(h.link_iff _ target).1 hway]
          exact hfollow _ _ hfound
        · rename_i last hdirectory hlink _
          split at hfound
          · rename_i hlast
            cases hfound
            rw [hnode]
            split
            · rename_i heq
              cases heq
            · rename_i heq
              exact absurd (Option.some.inj heq) hdirectory
            · rename_i target heq
              exact absurd (Option.some.inj heq) (hlink target)
            · rename_i heq
              cases heq
              exact if_pos hlast
          · cases hfound

/-- A file that is found through links in one tree is found in the other one. -/
theorem followLinks_eq_file (h : SameShape tree other) {links : Nat} {place : Place}
    {names : List String} (hfound : tree.followLinks links place names = .ok (found, node)) :
    other.followLinks links place names = .ok (found, node) := by
  induction links generalizing place names with
  | zero => exact h.followNames_eq_file hisFile hnode (fun _ _ hfail => by cases hfail) hfound
  | succ links ih => exact h.followNames_eq_file hisFile hnode (fun _ _ hrest => ih hrest) hfound

/-- An access reaches the same file in a tree of the same shape that has it. -/
theorem find_eq_file (h : SameShape tree other) {path : String}
    (hfound : tree.find path = .ok (found, node)) : other.find path = .ok (found, node) := by
  unfold find at hfound ⊢
  split at hfound
  · cases hfound
  · rename_i hpath
    rw [if_neg hpath, ← h.current_eq]
    exact h.followLinks_eq_file hisFile hnode hfound

end

end SameShape

/-! ## Other contents of a file -/

/-- Other places keep their nodes when one is taken out. -/
theorem lookup_filter_ne (nodes : List (Place × FileNode)) {place other : Place}
    (hother : other ≠ place) :
    (nodes.filter (·.1 != place)).lookup other = nodes.lookup other := by
  induction nodes with
  | nil => rfl
  | cons entry rest ih =>
    obtain ⟨key, kept⟩ := entry
    by_cases hkey : key = place
    · have hne : (other == key) = false := by simpa [hkey] using hother
      rw [List.filter_cons_of_neg (by simp [hkey]), ih, List.lookup_cons, hne]
    · rw [List.filter_cons_of_pos (by simpa using hkey), List.lookup_cons, List.lookup_cons, ih]

/-- Putting a node at a place changes what is there and nothing else. -/
theorem nodeAt?_putNode (tree : FileTree) {place : Place} (node : FileNode) (other : Place)
    (hplace : place ≠ []) :
    (tree.putNode place node).nodeAt? other =
      if other = place then some node else tree.nodeAt? other := by
  unfold nodeAt? putNode
  by_cases hother : other = place
  · subst hother
    simp [hplace]
  · rw [if_neg hother, List.lookup_cons, beq_false_of_ne hother, lookup_filter_ne _ hother]

/-- A file with other contents leaves the shape of a tree. -/
theorem SameShape.putNode_file (tree : FileTree) {place : Place} {data : Bytes} (other : Bytes)
    (hplace : place ≠ []) (hfile : tree.nodeAt? place = some (.file data)) :
    SameShape tree (tree.putNode place (.file other)) where
  current_eq := rfl
  directory_iff := by
    intro front
    rw [nodeAt?_putNode tree _ front hplace]
    split
    · rename_i hfront
      simp [hfront, hfile]
    · rfl
  link_iff := by
    intro front target
    rw [nodeAt?_putNode tree _ front hplace]
    split
    · rename_i hfront
      simp [hfront, hfile]
    · rfl

/-! ## Reading -/

section

variable {tree : FileTree} {path : String}

/-- What can be read is an open file that is found. -/
theorem read_eq_ok_iff {data : Bytes} :
    tree.read path = .ok data ↔ ∃ place, tree.find path = .ok (place, .file data) := by
  unfold read
  cases hfind : tree.find path with
  | error error => simp
  | ok found =>
    obtain ⟨place, node⟩ := found
    cases node <;> simp [FileNode.opened?]

/-- What is opened is a file that an access finds. -/
theorem fileAt?_eq_some_iff {file : Except FileError Bytes} :
    tree.fileAt? path = some file ↔
      ∃ place node, tree.find path = .ok (place, node) ∧ node.opened? = some file := by
  unfold fileAt?
  cases tree.find path with
  | error error => simp
  | ok found =>
    obtain ⟨place, node⟩ := found
    refine ⟨fun h => ⟨place, node, rfl, h⟩, ?_⟩
    rintro ⟨_, _, ⟨⟩, h⟩
    exact h

/-- What reading a file comes to is what opening it comes to. -/
theorem fileAt?_eq_of_isFile (h : tree.isFile path = true) :
    tree.fileAt? path = some (tree.read path) := by
  obtain ⟨file, hfile⟩ := Option.isSome_iff_exists.1 h
  obtain ⟨place, node, hfind, hopened⟩ := fileAt?_eq_some_iff.1 hfile
  simp [hfile, read, hfind, hopened]

/-- What can be read is a file. -/
theorem isFile_of_read {data : Bytes} (h : tree.read path = .ok data) : tree.isFile path = true := by
  obtain ⟨place, hfind⟩ := read_eq_ok_iff.1 h
  exact Option.isSome_iff_exists.2
    ⟨_, fileAt?_eq_some_iff.2 ⟨place, .file data, hfind, rfl⟩⟩

/-- What can be read is a file. -/
theorem fileAt?_of_read {data : Bytes} (h : tree.read path = .ok data) :
    tree.fileAt? path = some (.ok data) := by
  rw [fileAt?_eq_of_isFile (isFile_of_read h), h]

/-- Where opening a file comes to the same, reading it does. -/
theorem read_eq_of_fileAt?_eq {other : FileTree} {path' : String} (hfile : tree.isFile path = true)
    (h : tree.fileAt? path = other.fileAt? path') : tree.read path = other.read path' := by
  have hother : other.isFile path' = true := by rwa [isFile, ← h]
  rw [fileAt?_eq_of_isFile hfile, fileAt?_eq_of_isFile hother] at h
  exact Option.some.inj h

/-- A file has a path with characters. -/
theorem isEmpty_of_isFile (h : tree.isFile path = true) : path.isEmpty = false := by
  rw [← Bool.not_eq_true]
  intro hempty
  rw [isFile, fileAt?, find, if_pos hempty] at h
  cases h

end

/-- Files with the same real path are the same file. -/
theorem fileAt?_eq_of_realPath_eq {tree : FileTree} (hcurrent : tree.IsSettled tree.current)
    {path other : String} (hpath : tree.isFile path = true) (hother : tree.isFile other = true)
    (h : tree.realPath path = tree.realPath other) : tree.fileAt? path = tree.fileAt? other := by
  obtain ⟨file, hfile⟩ := Option.isSome_iff_exists.1 hpath
  obtain ⟨file', hfile'⟩ := Option.isSome_iff_exists.1 hother
  obtain ⟨place, node, hfind, hopened⟩ := fileAt?_eq_some_iff.1 hfile
  obtain ⟨place', node', hfind', hopened'⟩ := fileAt?_eq_some_iff.1 hfile'
  have hleads := leadsTo_of_find hfind
  have hleads' := leadsTo_of_find hfind'
  rw [realPath, realPath, realPlace_eq_of_leadsTo hleads, realPlace_eq_of_leadsTo hleads'] at h
  obtain rfl := Path.ofPlace_inj (hleads.isSettled hcurrent).plain
    (hleads'.isSettled hcurrent).plain h
  have hnode : node = node' := Option.some.inj
    ((nodeAt?_of_find (by simp [hopened]) hfind).symm.trans
      (nodeAt?_of_find (by simp [hopened']) hfind'))
  rw [hfile, hfile', ← hopened, ← hopened', hnode]

end BinaryStrings.FileTree

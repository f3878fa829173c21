import BinaryStrings.Proofs.FileTree.Access

/-!
# Putting files into a tree

A file is put together with the directories on the way to it, and is found by their names.

Main results:

- Theorem `FileTree.nodeAt?_makeParents`: what is in a tree once the directories on the way are there.
- Theorem `FileTree.read_put`: a file that is put is read at its path from the current directory.
-/

namespace BinaryStrings

/-! ## Relative paths -/

namespace Path

variable {names : List String}

/-- The characters of joined names. -/
theorem toList_intercalate (names : List String) :
    (String.intercalate "/" names).toList = [separator].intercalate (names.map String.toList) := by
  simp [separator]

/-- Names with separators between them are the parts of their path. -/
theorem parts_intercalate (hne : names ≠ []) (hnames : ∀ name ∈ names, IsPlain name) :
    parts (String.intercalate "/" names) = names := by
  have hmarks : ∀ part ∈ names.map String.toList, separator ∉ part := by
    intro part hpart
    obtain ⟨name, hname, rfl⟩ := List.mem_map.1 hpart
    exact (hnames name hname).2.2.2
  unfold parts Text.split
  rw [toList_intercalate, Text.splitChars_intercalate (by simpa using hne) hmarks]
  simp

/-- A path of names starts with the first character of the first one. -/
theorem exists_toList_intercalate (hne : names ≠ []) (hnames : ∀ name ∈ names, IsPlain name) :
    ∃ c rest, (String.intercalate "/" names).toList = c :: rest ∧ c ≠ separator := by
  obtain ⟨name, others, rfl⟩ := List.exists_cons_of_ne_nil hne
  obtain ⟨hempty, -, -, hmark⟩ := hnames name List.mem_cons_self
  cases hname : name.toList with
  | nil => exact absurd (String.toList_eq_nil_iff.1 hname) hempty
  | cons c rest =>
    rw [hname] at hmark
    have hfirst : ∃ more,
        [separator].intercalate ((c :: rest) :: others.map String.toList) = c :: more := by
      cases others.map String.toList with
      | nil => exact ⟨rest, by simp⟩
      | cons next more => exact ⟨_, by rw [List.intercalate_cons_cons]; rfl⟩
    obtain ⟨more, hmore⟩ := hfirst
    refine ⟨c, more, ?_, fun h => hmark (by rw [h]; exact List.mem_cons_self)⟩
    rw [toList_intercalate, List.map_cons, hname, hmore]

/-- Joined names do not start at the root. -/
theorem isRooted_intercalate (hne : names ≠ []) (hnames : ∀ name ∈ names, IsPlain name) :
    isRooted (String.intercalate "/" names) = false := by
  obtain ⟨c, rest, htext, hc⟩ := exists_toList_intercalate hne hnames
  simp [isRooted, htext, hc]

/-- They are not empty. -/
theorem isEmpty_intercalate (hne : names ≠ []) (hnames : ∀ name ∈ names, IsPlain name) :
    (String.intercalate "/" names).isEmpty = false := by
  obtain ⟨c, rest, htext, -⟩ := exists_toList_intercalate hne hnames
  rw [← Bool.not_eq_true, String.isEmpty_iff, ← String.toList_eq_nil_iff, htext]
  simp

end Path

namespace FileTree

/-! ## Directories on the way -/

variable {tree : FileTree} {place : Place}

/-- Makes the directory of the first `n` names of a place. -/
def makeParent (place : Place) (tree : FileTree) (n : Nat) : FileTree :=
  if (tree.nodeAt? (place.take n)).isSome then tree else tree.putNode (place.take n) .directory

/-- One parent is made where nothing is. -/
theorem nodeAt?_makeParent (tree : FileTree) (place : Place) (n : Nat) (other : Place) :
    (makeParent place tree n).nodeAt? other =
      if other = place.take n ∧ tree.nodeAt? other = none then some .directory
      else tree.nodeAt? other := by
  unfold makeParent
  split
  · rename_i hsome
    rw [if_neg]
    rintro ⟨rfl, hnone⟩
    rw [hnone] at hsome
    cases hsome
  · rename_i hnone
    have hplace : place.take n ≠ [] := by
      intro hnil
      rw [hnil] at hnone
      exact hnone rfl
    rw [nodeAt?_putNode tree _ other hplace]
    by_cases hother : other = place.take n
    · rw [if_pos hother, if_pos ⟨hother, by simpa [hother] using hnone⟩]
    · rw [if_neg hother, if_neg fun h => hother h.1]

/-- So are several, each where nothing is. -/
theorem nodeAt?_foldl_makeParent (tree : FileTree) (place : Place) (numbers : List Nat)
    (other : Place) :
    (numbers.foldl (makeParent place) tree).nodeAt? other =
      if (∃ n ∈ numbers, other = place.take n) ∧ tree.nodeAt? other = none then some .directory
      else tree.nodeAt? other := by
  induction numbers generalizing tree with
  | nil => simp
  | cons n rest ih =>
    rw [List.foldl_cons, ih, nodeAt?_makeParent]
    by_cases hnone : tree.nodeAt? other = none
    · by_cases hother : other = place.take n
      · have hmade : ∃ m ∈ n :: rest, other = place.take m := ⟨n, List.mem_cons_self, hother⟩
        simp only [if_pos (And.intro hother hnone), if_pos (And.intro hmade hnone), reduceCtorEq,
          and_false, if_false]
      · simp [hnone, hother]
    · simp [hnone]

/-- The directories on the way are made where there is nothing, and everything else stays. -/
theorem nodeAt?_makeParents (tree : FileTree) (place other : Place) :
    (tree.makeParents place).nodeAt? other =
      if (∃ n < place.length, other = place.take n) ∧ tree.nodeAt? other = none then some .directory
      else tree.nodeAt? other := by
  have hfold : tree.makeParents place = (List.range place.length).foldl (makeParent place) tree := rfl
  rw [hfold, nodeAt?_foldl_makeParent]
  simp only [List.mem_range]

/-- The current place stays. -/
theorem current_makeParents (tree : FileTree) (place : Place) :
    (tree.makeParents place).current = tree.current := by
  have hfold : ∀ numbers : List Nat,
      (numbers.foldl (makeParent place) tree).current = tree.current := by
    intro numbers
    induction numbers generalizing tree with
    | nil => rfl
    | cons n rest ih =>
      rw [List.foldl_cons, ih]
      unfold makeParent
      split <;> rfl
  exact hfold _

/-! ## Following directories -/

/-- Names of directories and of a file in the last one lead to the file. -/
theorem followNames_directories {follow : Place → List String → Found} {data : Bytes}
    {names : List String} (hne : names ≠ [])
    (hnames : ∀ name ∈ names, Path.IsPlain name ∧ isTooLong name = false)
    (hway : ∀ front back, names = front ++ back → front ≠ [] → back ≠ [] →
      tree.nodeAt? (place ++ front) = some .directory)
    (hfile : tree.nodeAt? (place ++ names) = some (.file data)) :
    tree.followNames follow place names = .ok (place ++ names, .file data) := by
  induction names generalizing place with
  | nil => exact absurd rfl hne
  | cons name rest ih =>
    obtain ⟨⟨hempty, hdot, hup, -⟩, hlength⟩ := hnames name List.mem_cons_self
    rw [followNames_plain _ _ _ _ (by rw [Path.special_eq_false hempty hdot hup]; simp),
      hlength, if_neg (by simp)]
    cases rest with
    | nil => rw [hfile]; rfl
    | cons next more =>
      have hnext : tree.nodeAt? (place ++ [name]) = some .directory :=
        hway [name] (next :: more) rfl (by simp) (by simp)
      have hsplit : place ++ name :: next :: more = (place ++ [name]) ++ next :: more := by simp
      rw [hsplit] at hfile ⊢
      rw [hnext]
      refine ih (by simp) (fun other hother => hnames other (List.mem_cons_of_mem _ hother))
        (fun front back hnames hfront hback => ?_) hfile
      have hdirectory := hway (name :: front) back (by rw [hnames]; rfl) (by simp) hback
      rwa [List.append_cons] at hdirectory

/-- A file that is put where nothing is in the way is read at its path from the current directory. -/
theorem read_put (tree : FileTree) {names : List String} {data : Bytes} (hne : names ≠ [])
    (hnames : ∀ name ∈ names, Path.IsPlain name ∧ isTooLong name = false)
    (hway : ∀ n, tree.nodeAt? ((tree.current ++ names).take n) = none ∨
      tree.nodeAt? ((tree.current ++ names).take n) = some .directory) :
    (tree.put (tree.current ++ names) (.file data)).read (String.intercalate "/" names) =
      .ok data := by
  have hplain : ∀ name ∈ names, Path.IsPlain name := fun name hname => (hnames name hname).1
  have hplace : tree.current ++ names ≠ [] := by simp [hne]
  have hcurrent : (tree.put (tree.current ++ names) (.file data)).current = tree.current :=
    current_makeParents _ _
  have hfile : (tree.put (tree.current ++ names) (.file data)).nodeAt? (tree.current ++ names) =
      some (.file data) := by
    rw [put, nodeAt?_putNode _ _ _ hplace, if_pos rfl]
  refine read_eq_ok_iff.2 ⟨tree.current ++ names, ?_⟩
  rw [find, Path.isEmpty_intercalate hne hplain, Path.isRooted_intercalate hne hplain,
    Path.parts_intercalate hne hplain, hcurrent, if_neg (by simp), if_neg (by simp)]
  refine followNames_directories hne hnames (fun front back hsplit _ hback => ?_) hfile
  have htake : tree.current ++ front =
      (tree.current ++ names).take (tree.current.length + front.length) := by
    rw [hsplit, ← List.append_assoc, ← List.length_append, List.take_left]
  have hlength : tree.current.length + front.length < (tree.current ++ names).length := by
    rw [hsplit]
    simpa [Nat.add_assoc] using List.length_pos_iff.2 hback
  rw [put, nodeAt?_putNode _ _ _ hplace, if_neg (fun h => by rw [← h] at hlength; simp at hlength),
    nodeAt?_makeParents, htake]
  rcases hway (tree.current.length + front.length) with hnone | hdirectory
  · rw [if_pos ⟨⟨_, hlength, rfl⟩, hnone⟩]
  · rw [if_neg (by simp [hdirectory]), hdirectory]

end FileTree

end BinaryStrings

import BinaryStrings.FileTree.Access
import BinaryStrings.FileTree.RealPath

/-!
# Where a path leads

`Resolves` says by its rules, without bounds and without the links met before, at which place names
end that are followed from a place: a link on the way is replaced by its target.  Names that meet a
loop of links resolve to no place at all.

Main results:

- Theorem `Resolves.unique`: names resolve to one place, in one number of steps.
- Theorem `Resolves.split`: where names lead, through the place where a first part of them leads.
- Theorem `Resolves.settled`: behind all links there is no link on the way to a place.
- Theorem `leadsTo_ofPlace`: the path of such a place leads to it.
-/

namespace BinaryStrings

/-! ## The parts of a path -/

namespace Text

/-- A text without the mark is its only part. -/
theorem splitChars_of_not_mem {mark : Char} {part : List Char} (hpart : mark ∉ part) :
    splitChars mark part = [part] := by
  induction part with
  | nil => rfl
  | cons c part ih =>
    rw [List.mem_cons, not_or] at hpart
    have hc : (c == mark) = false := by simpa using Ne.symm hpart.1
    rw [splitChars, hc, ih hpart.2]
    rfl

/-- A text is split at its first mark. -/
theorem splitChars_append_mark {mark : Char} {part : List Char} (rest : List Char)
    (hpart : mark ∉ part) :
    splitChars mark (part ++ mark :: rest) = part :: splitChars mark rest := by
  induction part with
  | nil => simp [splitChars]
  | cons c part ih =>
    rw [List.mem_cons, not_or] at hpart
    have hc : (c == mark) = false := by simpa using Ne.symm hpart.1
    rw [List.cons_append, splitChars, hc, ih hpart.2]
    rfl

/-- No part has the mark in it. -/
theorem not_mem_of_mem_splitChars {mark : Char} {text part : List Char}
    (hpart : part ∈ splitChars mark text) : mark ∉ part := by
  induction text generalizing part with
  | nil =>
    rw [splitChars, List.mem_singleton] at hpart
    rw [hpart]
    exact List.not_mem_nil
  | cons c text ih =>
    unfold splitChars at hpart
    split at hpart
    · rcases List.mem_cons.1 hpart with rfl | hrest
      · exact List.not_mem_nil
      · exact ih hrest
    · rename_i hc
      split at hpart
      · rw [List.mem_singleton] at hpart
        rw [hpart, List.mem_singleton]
        rintro rfl
        simp at hc
      · rename_i first others hsplit
        rcases List.mem_cons.1 hpart with rfl | hrest
        · rw [List.mem_cons, not_or]
          refine ⟨?_, ih (by simp [hsplit])⟩
          rintro rfl
          simp at hc
        · exact ih (by simp [hsplit, hrest])

/-- Splitting takes joined parts apart. -/
theorem splitChars_intercalate {mark : Char} {parts : List (List Char)} (hne : parts ≠ [])
    (hparts : ∀ part ∈ parts, mark ∉ part) :
    splitChars mark ([mark].intercalate parts) = parts := by
  induction parts with
  | nil => exact absurd rfl hne
  | cons part rest ih =>
    have hpart := hparts part (by simp)
    cases rest with
    | nil => rw [List.intercalate_singleton, splitChars_of_not_mem hpart]
    | cons next rest =>
      have hrest := ih (by simp) fun other hother => hparts other (by simp [hother])
      rw [List.intercalate_cons_cons, List.append_assoc, List.singleton_append,
        splitChars_append_mark _ hpart, hrest]

end Text

namespace Path

/-- Where following a path starts: at the root, or at a place given. -/
def origin (place : Place) (path : String) : Place :=
  if isRooted path then [] else place

/-- Whether a name can stand at a place. -/
def IsPlain (name : String) : Prop :=
  name ≠ "" ∧ name ≠ "." ∧ name ≠ ".." ∧ separator ∉ name.toList

instance (name : String) : Decidable (IsPlain name) :=
  inferInstanceAs (Decidable (_ ∧ _ ∧ _ ∧ _))

/-- No name of a path has a separator in it. -/
theorem not_mem_of_mem_parts {path name : String} (hname : name ∈ parts path) :
    separator ∉ name.toList := by
  unfold parts Text.split at hname
  obtain ⟨part, hpart, rfl⟩ := List.mem_map.1 hname
  rw [String.toList_ofList]
  exact Text.not_mem_of_mem_splitChars hpart

/-- The path of a place starts at the root. -/
theorem isRooted_ofPlace (place : Place) : isRooted (ofPlace place) = true := by
  simp [isRooted, ofPlace, separator]

/-- The path of a place has the names of the place for parts, behind an empty one. -/
theorem parts_ofPlace {place : Place} (hplace : ∀ name ∈ place, IsPlain name) :
    parts (ofPlace place) = "" :: if place = [] then [""] else place := by
  have hmarks : ∀ part ∈ place.map String.toList, separator ∉ part := by
    intro part hpart
    obtain ⟨name, hname, rfl⟩ := List.mem_map.1 hpart
    exact (hplace name hname).2.2.2
  have hsplit : Text.splitChars separator (ofPlace place).toList =
      [] :: Text.splitChars separator ([separator].intercalate (place.map String.toList)) := by
    have htext : (ofPlace place).toList =
        [] ++ separator :: [separator].intercalate (place.map String.toList) := by
      simp [ofPlace, separator]
    rw [htext, Text.splitChars_append_mark _ List.not_mem_nil]
  unfold parts Text.split
  rw [hsplit]
  split
  · rename_i hnil
    rw [hnil]
    rfl
  · rename_i hne
    rw [Text.splitChars_intercalate (by simpa using hne) hmarks]
    simp

/-- Places are told apart by their paths. -/
theorem ofPlace_inj {place other : Place} (hplace : ∀ name ∈ place, IsPlain name)
    (hother : ∀ name ∈ other, IsPlain name) (h : ofPlace place = ofPlace other) :
    place = other := by
  have hparts : (if place = [] then [""] else place) = if other = [] then [""] else other := by
    have := congrArg parts h
    rw [parts_ofPlace hplace, parts_ofPlace hother, List.cons.injEq] at this
    exact this.2
  split at hparts <;> split at hparts
  · rename_i hnil hnil'
    rw [hnil, hnil']
  · exact absurd rfl (hother "" (by rw [← hparts]; exact List.mem_singleton.2 rfl)).1
  · exact absurd rfl (hplace "" (by rw [hparts]; exact List.mem_singleton.2 rfl)).1
  · exact hparts

/-- Names of nodes are not special. -/
theorem special_eq_false {name : String} (hempty : name ≠ "") (hdot : name ≠ ".")
    (hup : name ≠ "..") : (name.isEmpty || name == "." || name == "..") = false := by
  have hnotEmpty : name.isEmpty = false := by simpa using hempty
  simp [hnotEmpty, hdot, hup]

/-- Every name but the empty one and the dots leads one name further. -/
theorem step_eq_append {name : String} (place : Place) (hempty : name ≠ "") (hdot : name ≠ ".")
    (hup : name ≠ "..") : step place name = place ++ [name] := by
  have hnotEmpty : name.isEmpty = false := by simpa using hempty
  simp [step, hnotEmpty, hdot, hup]

end Path

namespace FileTree

/-! ## Following names -/

/-- The target of the link that a name leads to from a place, if it leads to one. -/
def linkBehind? (tree : FileTree) (place : Place) (name : String) : Option String :=
  if name.isEmpty || name == "." || name == ".." then none
  else
    match tree.nodeAt? (place ++ [name]) with
    | some (.link target) => some target
    | _ => none

/-- No link is behind a special name. -/
theorem linkBehind?_of_special {tree : FileTree} (place : Place) {name : String}
    (hname : (name.isEmpty || name == "." || name == "..") = true) :
    tree.linkBehind? place name = none :=
  if_pos hname

section

variable (tree : FileTree) (place : Place) {name : String}

/-- A link is behind a name if one is at the place of this name. -/
theorem linkBehind?_eq_some_iff {target : String} (hempty : name ≠ "") (hdot : name ≠ ".")
    (hup : name ≠ "..") : tree.linkBehind? place name = some target ↔
      tree.nodeAt? (place ++ [name]) = some (.link target) := by
  unfold linkBehind?
  rw [Path.special_eq_false hempty hdot hup]
  cases tree.nodeAt? (place ++ [name]) with
  | none => simp
  | some node => cases node <;> simp

/-- Otherwise none is. -/
theorem linkBehind?_eq_none_iff (hempty : name ≠ "") (hdot : name ≠ ".") (hup : name ≠ "..") :
    tree.linkBehind? place name = none ↔
      ∀ target, tree.nodeAt? (place ++ [name]) ≠ some (.link target) := by
  rw [Option.eq_none_iff_forall_ne_some]
  exact forall_congr' fun target =>
    not_congr (linkBehind?_eq_some_iff tree place hempty hdot hup)

end

/-- Names lead from a place to a final place, in so many steps. -/
inductive Resolves (tree : FileTree) : Nat → Place → List String → Place → Prop where
  | done (place : Place) : Resolves tree 0 place [] place
  | step {steps : Nat} {place final : Place} {name : String} {rest : List String}
      (hname : tree.linkBehind? place name = none)
      (hrest : Resolves tree steps (Path.step place name) rest final) :
      Resolves tree (steps + 1) place (name :: rest) final
  | link {steps more : Nat} {place behind final : Place} {name target : String}
      {rest : List String} (hname : tree.linkBehind? place name = some target)
      (htarget : Resolves tree steps (Path.origin place target) (Path.parts target) behind)
      (hrest : Resolves tree more behind rest final) :
      Resolves tree (steps + more + 1) place (name :: rest) final

/-- Where a path leads; a path that meets a loop of links leads nowhere. -/
def LeadsTo (tree : FileTree) (path : String) (final : Place) : Prop :=
  ∃ steps, Resolves tree steps (Path.origin tree.current path) (Path.parts path) final

namespace Resolves

variable {tree : FileTree}

/-- A name without a link behind it is one step. -/
theorem of_cons_none {steps : Nat} {place final : Place} {name : String} {rest : List String}
    (h : Resolves tree steps place (name :: rest) final)
    (hname : tree.linkBehind? place name = none) :
    ∃ fewer, steps = fewer + 1 ∧ Resolves tree fewer (Path.step place name) rest final := by
  cases h with
  | step _ hrest => exact ⟨_, rfl, hrest⟩
  | link hlink _ _ =>
    rw [hname] at hlink
    cases hlink

/-- Behind a link its target is followed first. -/
theorem of_cons_link {steps : Nat} {place final : Place} {name target : String}
    {rest : List String} (h : Resolves tree steps place (name :: rest) final)
    (hname : tree.linkBehind? place name = some target) :
    ∃ inner more behind, steps = inner + more + 1 ∧
      Resolves tree inner (Path.origin place target) (Path.parts target) behind ∧
        Resolves tree more behind rest final := by
  cases h with
  | step hnone _ =>
    rw [hname] at hnone
    cases hnone
  | link hlink htarget hrest =>
    rw [hname] at hlink
    cases hlink
    exact ⟨_, _, _, rfl, htarget, hrest⟩

/-- Names lead to one place, in one number of steps. -/
theorem unique {steps steps' : Nat} {place final final' : Place} {names : List String}
    (h : Resolves tree steps place names final) (h' : Resolves tree steps' place names final') :
    steps = steps' ∧ final = final' := by
  induction h generalizing steps' final' with
  | done place =>
    cases h'
    exact ⟨rfl, rfl⟩
  | step hname hrest ih =>
    obtain ⟨fewer, rfl, hrest'⟩ := h'.of_cons_none hname
    obtain ⟨rfl, hfinal⟩ := ih hrest'
    exact ⟨rfl, hfinal⟩
  | link hname htarget hrest ihtarget ihrest =>
    obtain ⟨inner, more, behind, rfl, htarget', hrest'⟩ := h'.of_cons_link hname
    obtain ⟨rfl, rfl⟩ := ihtarget htarget'
    obtain ⟨rfl, hfinal⟩ := ihrest hrest'
    exact ⟨rfl, hfinal⟩

/-- Names that lead somewhere do so through the place where a first part of them leads. -/
theorem split {steps : Nat} {place final : Place} {names rest : List String}
    (h : Resolves tree steps place (names ++ rest) final) :
    ∃ first second middle, Resolves tree first place names middle ∧
      Resolves tree second middle rest final := by
  induction names generalizing steps place with
  | nil => exact ⟨0, steps, place, .done place, h⟩
  | cons name names ih =>
    cases h with
    | step hname hrest =>
      obtain ⟨first, second, middle, hfirst, hsecond⟩ := ih hrest
      exact ⟨first + 1, second, middle, .step hname hfirst, hsecond⟩
    | link hname htarget hrest =>
      obtain ⟨first, second, middle, hfirst, hsecond⟩ := ih hrest
      exact ⟨_, second, middle, .link hname htarget hfirst, hsecond⟩

end Resolves

/-! ## Places behind all links -/

/-- There is no link at a place or on the way to it, and its names are plain. -/
structure IsSettled (tree : FileTree) (place : Place) : Prop where
  plain : ∀ name ∈ place, Path.IsPlain name
  unlinked : ∀ front, front <+: place → ∀ target, tree.nodeAt? front ≠ some (.link target)

namespace IsSettled

variable {tree : FileTree} {place : Place}

/-- The root is settled. -/
theorem root (tree : FileTree) : IsSettled tree [] where
  plain := by simp
  unlinked := by
    intro front hfront target
    rw [List.prefix_nil.1 hfront]
    simp [nodeAt?]

/-- So is what is above a settled place. -/
theorem dropLast (h : IsSettled tree place) : IsSettled tree place.dropLast where
  plain := fun name hname => h.plain name ((List.dropLast_subset place) hname)
  unlinked := fun front hfront => h.unlinked front (hfront.trans (List.dropLast_prefix place))

/-- So is what is below it, unless a link is there. -/
theorem append {name : String} (h : IsSettled tree place) (hname : Path.IsPlain name)
    (hlink : ∀ target, tree.nodeAt? (place ++ [name]) ≠ some (.link target)) :
    IsSettled tree (place ++ [name]) where
  plain := by
    intro other hother
    rcases List.mem_append.1 hother with hold | hnew
    · exact h.plain other hold
    · rw [List.mem_singleton.1 hnew]
      exact hname
  unlinked := by
    intro front hfront
    rcases List.prefix_concat_iff.1 hfront with rfl | hold
    · exact hlink
    · exact h.unlinked front hold

/-- So is a directory at the root. -/
theorem of_directory {name : String} (hname : Path.IsPlain name)
    (hnode : tree.nodeAt? [name] = some .directory) : IsSettled tree [name] :=
  (root tree).append hname fun target hlink => by cases hnode.symm.trans hlink

/-- A step from a settled place that follows no link leads to one. -/
theorem step {name : String} (h : IsSettled tree place) (hname : Path.separator ∉ name.toList)
    (hlink : tree.linkBehind? place name = none) : IsSettled tree (Path.step place name) := by
  by_cases hstay : name.isEmpty || name == "."
  · rw [Path.step, if_pos hstay]
    exact h
  · by_cases hup : name = ".."
    · rw [Path.step, if_neg hstay, if_pos (by simpa using hup)]
      exact h.dropLast
    · have hplain : Path.IsPlain name := by
        simp only [Bool.or_eq_true, beq_iff_eq, String.isEmpty_iff, not_or] at hstay
        exact ⟨hstay.1, hstay.2, hup, hname⟩
      rw [Path.step_eq_append place hplain.1 hplain.2.1 hplain.2.2.1]
      have hunlinked :=
        (linkBehind?_eq_none_iff tree place hplain.1 hplain.2.1 hplain.2.2.1).1 hlink
      exact h.append hplain hunlinked

/-- A path starts at a settled place. -/
theorem origin (h : IsSettled tree place) (path : String) :
    IsSettled tree (Path.origin place path) := by
  unfold Path.origin
  split
  · exact root tree
  · exact h

end IsSettled

/-- Names followed from a settled place lead to a settled place. -/
theorem Resolves.settled {tree : FileTree} {steps : Nat} {place final : Place}
    {names : List String} (h : Resolves tree steps place names final)
    (hplace : IsSettled tree place) (hnames : ∀ name ∈ names, Path.separator ∉ name.toList) :
    IsSettled tree final := by
  induction h with
  | done place => exact hplace
  | step hname hrest ih =>
    exact ih (hplace.step (hnames _ (by simp)) hname) fun name hmem => hnames name (by simp [hmem])
  | link hname htarget hrest ihtarget ihrest =>
    have hbehind := ihtarget (hplace.origin _) fun name hmem => Path.not_mem_of_mem_parts hmem
    exact ihrest hbehind fun name hmem => hnames name (by simp [hmem])

/-- The names of a settled place lead to it. -/
theorem resolves_of_isSettled {tree : FileTree} {place : Place} {names : List String}
    (h : IsSettled tree (place ++ names)) :
    Resolves tree names.length place names (place ++ names) := by
  induction names generalizing place with
  | nil =>
    rw [List.append_nil]
    exact .done place
  | cons name names ih =>
    have hplain : Path.IsPlain name := h.plain name (by simp)
    have hnext : tree.linkBehind? place name = none :=
      (linkBehind?_eq_none_iff tree place hplain.1 hplain.2.1 hplain.2.2.1).2
        (h.unlinked _ ⟨names, by simp⟩)
    rw [List.append_cons] at h ⊢
    refine .step hnext ?_
    rw [Path.step_eq_append place hplain.1 hplain.2.1 hplain.2.2.1]
    exact ih h

/-- The path of a settled place leads to it. -/
theorem leadsTo_ofPlace {tree : FileTree} {place : Place} (h : IsSettled tree place) :
    LeadsTo tree (Path.ofPlace place) place := by
  have hstart : Path.origin tree.current (Path.ofPlace place) = [] :=
    if_pos (Path.isRooted_ofPlace place)
  have hempty : tree.linkBehind? [] "" = none := rfl
  unfold LeadsTo
  rw [hstart, Path.parts_ofPlace h.plain]
  split
  · rename_i hnil
    rw [hnil]
    exact ⟨2, .step hempty (.step hempty (.done []))⟩
  · exact ⟨_, .step hempty (resolves_of_isSettled h)⟩

end FileTree

end BinaryStrings

import BinaryStrings.Pattern.Parser
import Mathlib.Logic.Function.Basic

/-!
# Numbers of groups

Groups are numbered by their opening parentheses.  Behind other patterns the groups of a pattern have
higher numbers, which is the only difference.

Main results:

- Theorem `Tree.renumber_injective`: patterns with new numbers differ if they did before.
- Theorem `Tree.refers_renumber`: the new numbers are those that the old ones become.
-/

namespace BinaryStrings.Pattern

/-- The number of a group; the whole pattern has number zero. -/
def IsGroup (index groups : Nat) : Prop :=
  0 < index ∧ index < groups

/-- A group stays one when there are more. -/
theorem IsGroup.mono {index n m : Nat} (h : IsGroup index n) (hnm : n ≤ m) : IsGroup index m :=
  ⟨h.1, Nat.lt_of_lt_of_le h.2 hnm⟩

namespace Tree

/-! ## Numbers that occur -/

/-- The numbers of groups and back-references of a pattern have a property. -/
def Refers (p : Nat → Prop) : Tree → Prop
  | .seq first rest => first.Refers p ∧ rest.Refers p
  | .alt first second => first.Refers p ∧ second.Refers p
  | .backReference index => p index
  | .group index _ _ body => (∀ n ∈ index, p n) ∧ body.Refers p
  | .atomic body => body.Refers p
  | .look _ _ body => body.Refers p
  | .conditional _ yes no => yes.Refers p ∧ no.Refers p
  | .repeated _ _ _ body => body.Refers p
  | _ => True

/-- What holds of all numbers of a tree may be weakened. -/
theorem Refers.mono {p q : Nat → Prop} (hpq : ∀ n, p n → q n) {tree : Tree} (h : tree.Refers p) :
    tree.Refers q := by
  induction tree with
  | seq first rest ihFirst ihRest => exact ⟨ihFirst h.1, ihRest h.2⟩
  | alt first second ihFirst ihSecond => exact ⟨ihFirst h.1, ihSecond h.2⟩
  | backReference index => exact hpq index h
  | group index on off body ih => exact ⟨fun n hn => hpq n (h.1 n hn), ih h.2⟩
  | atomic body ih => exact ih h
  | look behind negated body ih => exact ih h
  | conditional index yes no ihYes ihNo => exact ⟨ihYes h.1, ihNo h.2⟩
  | repeated least most greed body ih => exact ih h
  | _ => trivial

/-- The numbers of a sequence are those of its items. -/
theorem refers_ofItems {p : Nat → Prop} {items : List Tree} :
    (ofItems items).Refers p ↔ ∀ item ∈ items, item.Refers p := by
  induction items with
  | nil => simp [ofItems, Refers]
  | cons item rest ih =>
    rw [List.forall_mem_cons, ← ih]
    exact Iff.rfl

/-- The numbers of a choice are those of its alternatives. -/
theorem refers_alternativesOf {p : Nat → Prop} {trees : List Tree}
    (h : ∀ tree ∈ trees, tree.Refers p) : (Pattern.alternatives trees).Refers p := by
  match trees with
  | [] => trivial
  | [one] => exact h one (by simp)
  | one :: other :: rest =>
    rw [List.forall_mem_cons] at h
    exact ⟨h.1, refers_alternativesOf h.2⟩

/-- The numbers of a pattern are those of groups. -/
def IsWithin (tree : Tree) (groups : Nat) : Prop :=
  tree.Refers (IsGroup · groups)

/-- A tree that refers to groups still does when there are more. -/
theorem IsWithin.mono {tree : Tree} {n m : Nat} (h : tree.IsWithin n) (hnm : n ≤ m) :
    tree.IsWithin m :=
  Refers.mono (fun _ hindex => hindex.mono hnm) h

/-! ## New numbers -/

/-- The pattern with other numbers for its groups. -/
def renumber (f : Nat → Nat) : Tree → Tree
  | .seq first rest => .seq (first.renumber f) (rest.renumber f)
  | .alt first second => .alt (first.renumber f) (second.renumber f)
  | .backReference index => .backReference (f index)
  | .group index on off body => .group (index.map f) on off (body.renumber f)
  | .atomic body => .atomic (body.renumber f)
  | .look behind negated body => .look behind negated (body.renumber f)
  | .conditional index yes no => .conditional (f index) (yes.renumber f) (no.renumber f)
  | .repeated least most greed body => .repeated least most greed (body.renumber f)
  | .empty => .empty
  | .point n => .point n
  | .notPoint n => .notPoint n
  | .anyChar => .anyChar
  | .oneOf negated items => .oneOf negated items
  | .anchor kind => .anchor kind

variable {f g : Nat → Nat}

/-- Numbers that stay. -/
theorem renumber_id (tree : Tree) : tree.renumber id = tree := by
  induction tree with
  | group index on off body ih => simp only [renumber, Option.map_id_fun, id_eq, ih]
  | seq first rest ihFirst ihRest => simp only [renumber, ihFirst, ihRest]
  | alt first second ihFirst ihSecond => simp only [renumber, ihFirst, ihSecond]
  | atomic body ih => simp only [renumber, ih]
  | look behind negated body ih => simp only [renumber, ih]
  | conditional index yes no ihYes ihNo => simp only [renumber, id_eq, ihYes, ihNo]
  | repeated least most greed body ih => simp only [renumber, ih]
  | _ => rfl

/-- New numbers can be taken back. -/
theorem renumber_leftInverse (h : Function.LeftInverse g f) :
    Function.LeftInverse (renumber g) (renumber f) := by
  intro tree
  induction tree with
  | group index on off body ih =>
    simp only [renumber, Option.map_map, h.comp_eq_id, Option.map_id_fun, id_eq, ih]
  | seq first rest ihFirst ihRest => simp only [renumber, ihFirst, ihRest]
  | alt first second ihFirst ihSecond => simp only [renumber, ihFirst, ihSecond]
  | backReference index => simp only [renumber, h index]
  | atomic body ih => simp only [renumber, ih]
  | look behind negated body ih => simp only [renumber, ih]
  | conditional index yes no ihYes ihNo => simp only [renumber, h index, ihYes, ihNo]
  | repeated least most greed body ih => simp only [renumber, ih]
  | _ => rfl

/-- Different trees stay different under different numbers. -/
theorem renumber_injective (hf : Function.Injective f) : Function.Injective (renumber f) :=
  (renumber_leftInverse (Function.leftInverse_invFun hf)).injective

/-- The items of a sequence are renumbered one by one. -/
theorem renumber_ofItems (items : List Tree) :
    (ofItems items).renumber f = ofItems (items.map (renumber f)) := by
  induction items with
  | nil => rfl
  | cons item rest ih => exact congrArg (Tree.seq (item.renumber f)) ih

/-- So are the alternatives of a choice. -/
theorem renumber_alternativesOf (trees : List Tree) :
    (Pattern.alternatives trees).renumber f = Pattern.alternatives (trees.map (renumber f)) := by
  match trees with
  | [] => rfl
  | [one] => rfl
  | one :: other :: rest =>
    exact congrArg (Tree.alt (one.renumber f)) (renumber_alternativesOf (other :: rest))

/-- The numbers of a renumbered tree are the new ones. -/
theorem refers_renumber {p : Nat → Prop} (tree : Tree) :
    (tree.renumber f).Refers p ↔ tree.Refers (fun index => p (f index)) := by
  induction tree with
  | seq first rest ihFirst ihRest => exact and_congr ihFirst ihRest
  | alt first second ihFirst ihSecond => exact and_congr ihFirst ihSecond
  | group index on off body ih =>
    refine and_congr ?_ ih
    cases index <;> simp
  | atomic body ih => exact ih
  | look behind negated body ih => exact ih
  | conditional index yes no ihYes ihNo => exact and_congr ihYes ihNo
  | repeated least most greed body ih => exact ih
  | _ => exact Iff.rfl

end Tree

end BinaryStrings.Pattern

import BinaryStrings.Json.Basic

/-!
# Nesting of values

A list or an object is nested one deeper than what it holds.

Main results:

- Theorem `itemsDepth_le_iff` and `membersDepth_le_iff`: how deep a list or an object is at most.
-/

namespace BinaryStrings.Json

/-! ## Lists and objects -/

/-- A list is one deeper than its deepest item. -/
@[simp] theorem depth_arr (items : List Json) : (arr items).depth = itemsDepth items + 1 :=
  rfl

/-- An object is one deeper than its deepest member. -/
@[simp] theorem depth_obj (members : Members) : (obj members).depth = membersDepth members + 1 :=
  rfl

/-- A bound of the depth of items holds for each of them. -/
theorem itemsDepth_le_iff {items : List Json} {bound : Nat} :
    itemsDepth items ≤ bound ↔ ∀ item ∈ items, item.depth ≤ bound := by
  induction items with
  | nil => simp [itemsDepth]
  | cons item rest ih => rw [itemsDepth, Nat.max_le, ih, List.forall_mem_cons]

/-- A bound of the depth of members holds for the value of each. -/
theorem membersDepth_le_iff {members : Members} {bound : Nat} :
    membersDepth members ≤ bound ↔ ∀ member ∈ members, member.2.depth ≤ bound := by
  induction members with
  | nil => simp [membersDepth]
  | cons member rest ih => rw [membersDepth, Nat.max_le, ih, List.forall_mem_cons, memberDepth]

/-! ## Lists within lists -/

/-- A value within so many lists. -/
def within : Nat → Json → Json
  | 0, value => value
  | n + 1, value => .arr [within n value]

/-- A value in lists within each other is as much deeper as there are lists. -/
theorem depth_within (n : Nat) (value : Json) : (within n value).depth = value.depth + n := by
  induction n with
  | zero => rfl
  | succ n ih => simp [within, itemsDepth, ih, Nat.add_assoc]

end BinaryStrings.Json

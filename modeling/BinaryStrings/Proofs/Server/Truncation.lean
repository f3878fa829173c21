import BinaryStrings.Proofs.Json.Members
import BinaryStrings.Proofs.Server.ResponseSize

/-!
# What is cut from a response

A round of the size guard cuts the largest list of an object to a first part and sets the remark; it
leaves everything else alone.  `IsCut` says this of one round and, because it is transitive, of all
rounds together.

Main results:

- Theorem `IsCut.of_shrink`: one round.
- Theorem `IsCut.trans`: one round after the other.
- Theorem `respond_obj_cases`: an object is sent as it is, cut, or as a preview.
-/

namespace BinaryStrings

namespace Server.SizeGuard

open Json

/-! ## Cut objects -/

/-- What the rounds leave of an object. -/
structure IsCut (before after : Members) : Prop where
  /-- Lists are cut to a first part. -/
  list : ∀ name items, name ≠ remarkName → before.get? name = some (.arr items) →
    ∃ kept, after.get? name = some (.arr (items.take kept)) ∧ (items ≠ [] → 0 < kept)
  /-- All other values stay as they are. -/
  other : ∀ name, name ≠ remarkName → (∀ items, before.get? name ≠ some (.arr items)) →
    after.get? name = before.get? name
  /-- Some list has lost items. -/
  shorter : ∃ name items kept, name ≠ remarkName ∧ kept < items.length ∧
    before.get? name = some (.arr items) ∧ after.get? name = some (.arr (items.take kept))
  /-- A remark says so. -/
  remark : ∃ text, after.get? remarkName = some (.str text)

/-- The object has each name once, and its remark, if there is one, is no list. -/
structure IsPlain (members : Members) : Prop where
  nodup : members.names.Nodup
  remark : ∀ items, members.get? remarkName ≠ some (.arr items)

theorem keptCount_pos (size length : Nat) : 0 < keptCount size length :=
  Nat.le_max_left _ _

variable {advice : Option String} {before middle after : Members}

/-- A round cuts a list. -/
theorem IsCut.of_shrink (hbefore : IsPlain before) {size : Nat} {value : Json}
    (hshrink : shrink advice size (.obj before) = some value) :
    ∃ after, value = .obj after ∧ IsCut before after ∧ IsPlain after := by
  simp only [shrink] at hshrink
  split at hshrink
  · cases hshrink
  · rename_i name items hlargest
    have hget : before.get? name = some (.arr items) := by
      rcases mem_of_largestFrom hlargest with hnone | hmem
      · cases hnone
      · exact Members.get?_eq_some_of_mem hbefore.nodup hmem
    have hname : name ≠ remarkName := by
      rintro rfl
      exact hbefore.remark items hget
    split at hshrink
    · cases hshrink
    · rename_i hkept
      cases hshrink
      refine ⟨_, rfl, ⟨fun other others hother hlist => ?_, fun other hother hlist => ?_, ?_, ?_⟩, ?_⟩
      · rw [Members.get?_set, if_neg hother, Members.get?_set]
        by_cases heq : other = name
        · rw [heq, hget] at hlist
          cases hlist
          exact ⟨_, by rw [if_pos heq], fun _ => keptCount_pos _ _⟩
        · rw [if_neg heq]
          exact ⟨others.length, by rw [List.take_length, hlist], List.length_pos_iff.2⟩
      · have hne : other ≠ name := by
          rintro rfl
          exact hlist items hget
        rw [Members.get?_set, if_neg hother, Members.get?_set, if_neg hne]
      · refine ⟨name, items, _, hname, Nat.lt_of_not_le hkept, hget, ?_⟩
        rw [Members.get?_set, if_neg hname, Members.get?_set, if_pos rfl]
      · exact ⟨_, by rw [Members.get?_set, if_pos rfl]⟩
      · refine ⟨Members.nodup_names_set (Members.nodup_names_set hbefore.nodup _ _) _ _, ?_⟩
        intro others
        rw [Members.get?_set, if_pos rfl]
        simp

/-- What is cut twice is cut. -/
theorem IsCut.trans (hfirst : IsCut before middle) (hsecond : IsCut middle after) :
    IsCut before after where
  list := by
    intro name items hname hlist
    obtain ⟨kept, hmiddle, hpos⟩ := hfirst.list name items hname hlist
    obtain ⟨kept', hafter, hpos'⟩ := hsecond.list name _ hname hmiddle
    refine ⟨min kept' kept, by rw [hafter, List.take_take], fun hitems => ?_⟩
    have htake : items.take kept ≠ [] := by
      have := List.length_pos_iff.2 hitems
      have := hpos hitems
      rw [← List.length_pos_iff, List.length_take]
      omega
    exact Nat.lt_min.2 ⟨hpos' htake, hpos hitems⟩
  other := by
    intro name hname hlist
    have hmiddle := hfirst.other name hname hlist
    rw [hsecond.other name hname (by rw [hmiddle]; exact hlist), hmiddle]
  shorter := by
    obtain ⟨name, items, kept, hname, hkept, hbefore, hmiddle⟩ := hfirst.shorter
    obtain ⟨kept', hafter, -⟩ := hsecond.list name _ hname hmiddle
    refine ⟨name, items, min kept' kept, hname, ?_, hbefore, by rw [hafter, List.take_take]⟩
    exact Nat.lt_of_le_of_lt (Nat.min_le_right _ _) hkept
  remark := hsecond.remark

/-- Of an object with one list, that list is cut. -/
theorem IsCut.take_of_only (h : IsCut before after) {name : String} {items : List Json}
    (hlist : before.get? name = some (.arr items))
    (honly : ∀ other others, before.get? other = some (.arr others) → other = name) :
    ∃ kept, 0 < kept ∧ kept < items.length ∧ after.get? name = some (.arr (items.take kept)) := by
  obtain ⟨other, others, kept, hother, hkept, hbefore, hafter⟩ := h.shorter
  obtain rfl := honly other others hbefore
  rw [hlist] at hbefore
  cases hbefore
  obtain ⟨kept', hafter', hpos⟩ := h.list other items hother hlist
  have hitems : items ≠ [] := List.length_pos_iff.1 (Nat.zero_lt_of_lt hkept)
  rw [hafter] at hafter'
  have hlength : (items.take kept).length = (items.take kept').length := by
    rw [Json.arr.inj (Option.some.inj hafter')]
  have hpos' := hpos hitems
  simp only [List.length_take] at hlength
  exact ⟨kept, by omega, hkept, hafter⟩

/-- The rounds leave an object as it is or cut it. -/
theorem shrinkRounds_obj (hbefore : IsPlain before) (rounds : Nat) :
    shrinkRounds advice rounds (.obj before) = .obj before ∨
      ∃ after, shrinkRounds advice rounds (.obj before) = .obj after ∧ IsCut before after := by
  induction rounds generalizing before with
  | zero => exact .inl rfl
  | succ rounds ih =>
    simp only [shrinkRounds]
    split
    · exact .inl rfl
    · split
      · exact .inl rfl
      · rename_i value hshrink
        obtain ⟨middle, rfl, hmiddle, hplain⟩ := IsCut.of_shrink hbefore hshrink
        right
        rcases ih hplain with hrest | ⟨after, hrest, hafter⟩
        · exact ⟨middle, hrest, hmiddle⟩
        · exact ⟨after, hrest, hmiddle.trans hafter⟩

/-! ## Responses -/

/-- An object is sent as it is, cut, or as a preview; only one that is too large is not sent as it
is. -/
theorem respond_obj_cases (tool : String) (advice : Option String) (hbefore : IsPlain before) :
    (respond tool advice (.obj before)).value = .obj before ∧ (Json.obj before).size ≤ limit ∨
      limit < (Json.obj before).size ∧
        ((∃ after, (respond tool advice (.obj before)).value = .obj after ∧ IsCut before after) ∨
          ∃ value, (respond tool advice (.obj before)).value = preview value) := by
  simp only [respond]
  split
  · rename_i hfits
    exact .inl ⟨rfl, hfits⟩
  · rename_i hlarge
    refine .inr ⟨Nat.lt_of_not_le hlarge, ?_⟩
    simp only [fitted]
    split
    · exact .inr ⟨_, rfl⟩
    · rename_i hfits
      rcases shrinkRounds_obj hbefore rounds with hsame | hcut
      · rw [hsame] at hfits
        exact absurd (Nat.le_of_not_lt hfits) hlarge
      · exact .inl hcut

/-- A response that still has the only list of an object is this object, or has a first part of the
list. -/
theorem respond_list_cases {tool : String} (hbefore : IsPlain before) {name : String}
    {items : List Json} (hlist : before.get? name = some (.arr items))
    (honly : ∀ other others, before.get? other = some (.arr others) → other = name)
    (hresponse : (respond tool advice (.obj before)).value = .obj after) {sent : List Json}
    (hsent : after.get? name = some (.arr sent)) :
    after = before ∧ sent = items ∨
      ∃ kept, 0 < kept ∧ kept < items.length ∧ sent = items.take kept ∧ IsCut before after := by
  rcases respond_obj_cases tool advice hbefore with
    ⟨hwhole, -⟩ | ⟨-, ⟨cut, hvalue, hcut⟩ | ⟨value, hpreview⟩⟩
  · rw [hwhole] at hresponse
    cases hresponse
    rw [hlist] at hsent
    cases hsent
    exact .inl ⟨rfl, rfl⟩
  · rw [hvalue] at hresponse
    cases hresponse
    obtain ⟨kept, hpos, hkept, hafter⟩ := hcut.take_of_only hlist honly
    rw [hafter] at hsent
    cases hsent
    exact .inr ⟨kept, hpos, hkept, rfl, hcut⟩
  · rw [hpreview] at hresponse
    cases hresponse
    simp only [Members.get?_cons] at hsent
    grind [Members.get?]

end Server.SizeGuard

end BinaryStrings

import BinaryStrings.Proofs.Server.CutStructure
import BinaryStrings.Server.Cells

/-!
# Data that others hold

The size guard on cells gives what `guarded` gives, and all cells that were there before are as they were:
what is changed is a copy.

Main results:

- Theorem `Cells.shrinkRounds_spec`: the rounds change their own cell alone.
- Theorem `Cells.guard_keeps`: what is sent keeps the structure of the response, and no cell has changed.
-/

namespace BinaryStrings.Server.SizeGuard

open Json

namespace Cells

variable {advice : Option String} {held cells : Cells} {address : Nat} {value smaller : Json}

theorem add_spec (hheld : held <+: cells) (value : Json) :
    held <+: (cells.add value).1 ∧ (cells.add value).1[(cells.add value).2]? = some value :=
  ⟨hheld.trans (List.prefix_append _ _), by simp [add]⟩

theorem replace_spec (hheld : held <+: cells) (hown : held.length ≤ address)
    (hvalue : cells[address]? = some value) (smaller : Json) :
    let replaced := cells.replace address value smaller
    held <+: replaced.1 ∧ held.length ≤ replaced.2 ∧ replaced.1[replaced.2]? = some smaller := by
  have hadd := add_spec hheld smaller
  have hset : held <+: cells.set address smaller := by
    obtain ⟨more, rfl⟩ := hheld
    rw [List.set_append_right _ _ hown]
    exact List.prefix_append _ _
  have hplace : address < cells.length := (List.getElem?_eq_some_iff.1 hvalue).1
  cases value with
  | arr items => exact ⟨hadd.1, hheld.length_le, hadd.2⟩
  | _ => exact ⟨hset, hown, by simp [replace, hplace]⟩

/-- The rounds on a cell that nobody else holds give what they give on its value, and they leave what is
held alone. -/
theorem shrinkRounds_spec (hheld : held <+: cells) (hown : held.length ≤ address)
    (hvalue : cells[address]? = some value) (advice : Option String) (rounds : Nat) :
    let cut := shrinkRounds advice rounds cells address
    held <+: cut.1 ∧ cut.1[cut.2]? = some (SizeGuard.shrinkRounds advice rounds value) := by
  induction rounds generalizing cells address value with
  | zero => exact ⟨hheld, hvalue⟩
  | succ rounds ih =>
    simp only [shrinkRounds, SizeGuard.shrinkRounds, hvalue]
    split
    · exact ⟨hheld, hvalue⟩
    · cases shrink advice value.size value with
      | none => exact ⟨hheld, hvalue⟩
      | some smaller =>
        obtain ⟨hheld', hown', hvalue'⟩ := replace_spec hheld hown hvalue smaller
        exact ih hheld' hown' hvalue'

/-- The guard sends what `guarded` gives and changes no cell. -/
theorem guard_spec (tool : String) (advice : Option String) (hvalue : cells[address]? = some value) :
    let sent := guard advice cells address
    cells <+: sent.1 ∧ sent.1[sent.2]? = some (guarded tool advice (.value value)).value := by
  simp only [guard, hvalue]
  by_cases hwritten : deepestWritten < value.depth
  · rw [if_pos hwritten, guarded, if_pos hwritten]
    exact add_spec List.prefix_rfl _
  · by_cases hfits : value.size ≤ limit
    · have hkept : ¬ GivesUp value := by
        rintro (h | ⟨h, -⟩)
        · exact hwritten h
        · exact Nat.not_lt_of_le hfits h
      rw [if_neg hwritten, if_pos hfits, guarded_of_not_givesUp hkept, respond, if_pos hfits]
      exact ⟨List.prefix_rfl, hvalue⟩
    · by_cases hdeep : deepestCopied < value.depth
      · have hlarge : (decide (limit < value.size) && decide (deepestCopied < value.depth)) = true := by
          simpa using ⟨Nat.lt_of_not_le hfits, hdeep⟩
        rw [if_neg hwritten, if_neg hfits, if_pos hdeep, guarded, if_neg hwritten, if_pos hlarge]
        exact add_spec List.prefix_rfl _
      · have hkept : ¬ GivesUp value := by
          rintro (h | ⟨-, h⟩)
          · exact hwritten h
          · exact hdeep h
        rw [if_neg hwritten, if_neg hfits, if_neg hdeep, guarded_of_not_givesUp hkept, respond,
          if_neg hfits]
        obtain ⟨hcopied, hcopy⟩ := add_spec (List.prefix_refl cells) value
        have hown : cells.length ≤ (cells.add value).2 := Nat.le_refl _
        obtain ⟨hcut, hlast⟩ := shrinkRounds_spec hcopied hown hcopy advice rounds
        simp only [fitted, hlast]
        split
        · exact add_spec hcut _
        · exact ⟨hcut, hlast⟩

/-- What the guard does with a response that is a list, or an object without a remark: no cell that is
held is changed, and in what is sent the structure is kept, unless the guard gives up and sends an
excuse.  If the response was too large and is not replaced by a preview, some list is shorter; a preview
shows the beginning of the text of a value that keeps the structure as well. -/
theorem guard_keeps (hvalue : cells[address]? = some value) (hwhole : IsWhole value) (tool : String)
    (advice : Option String) :
    let sent := guard advice cells address
    let response := (guarded tool advice (.value value)).value
    cells <+: sent.1 ∧ sent.1[sent.2]? = some response ∧
      (¬ GivesUp value → ∃ smaller, KeepsStructure value smaller ∧
        (response = smaller ∧ (limit < value.size → LosesItems value smaller) ∨
          limit < smaller.size ∧ (smaller = value ∨ LosesItems value smaller) ∧
            ∃ shown remark, shown <+: chars .plain smaller ∧
              response =
                .obj [("data_preview", .str (String.ofList shown)), (remarkName, .str remark)])) ∧
      (GivesUp value → ∃ size, response = excuse advice size) := by
  intro sent response
  obtain ⟨hheld, hsent⟩ := guard_spec tool advice hvalue
  refine ⟨hheld, hsent, fun hfits => ?_, fun hgives => ?_⟩
  · rw [show response = _ from congrArg Response.value (guarded_of_not_givesUp hfits tool advice)]
    exact respond_keeps hwhole tool advice
  · obtain ⟨size, -, hexcuse⟩ := exists_excuse_of_givesUp hgives tool advice
    exact ⟨size, hexcuse⟩

/-- An object with a list of seventy thousand items and their number. -/
theorem guard_keeps_long_list :
    ∃ items : List Json, items.length = 70000 ∧
      let value := Json.obj [("count", .int 70000), ("strings", .arr items)]
      limit < value.size ∧ [value] <+: (guard none [value] 0).1 ∧
        ∃ smaller, KeepsStructure value smaller ∧
          ((guarded "search" none (.value value)).value = smaller ∧ LosesItems value smaller ∨
            limit < smaller.size) := by
  -- The list is known by its length alone, or it would be written out.
  obtain ⟨items, hitems, hflat⟩ :
      ∃ items : List Json, items.length = 70000 ∧ ∀ item ∈ items, item.depth ≤ 0 :=
    ⟨List.replicate 70000 .null, List.length_replicate, fun item hitem =>
      List.eq_of_mem_replicate hitem ▸ Nat.le_refl 0⟩
  refine ⟨items, hitems, ?_⟩
  intro value
  have hlarge : limit < value.size := by
    have hlength := length_le_itemsSize items
    simp only [value, size_obj, membersSize_cons, memberSize, size_arr]
    unfold limit
    omega
  have hwhole : IsWhole value :=
    .object (by simp [Members.names]) (by simp [Members.names, remarkName])
  have hvalue : [value][0]? = some value := rfl
  have hdepth : value.depth ≤ 2 := by
    have hlist := itemsDepth_le_iff.2 hflat
    simp only [value, membersDepth, memberDepth, depth]
    omega
  obtain ⟨hheld, -, hfits, -⟩ := guard_keeps hvalue hwhole "search" none
  obtain ⟨smaller, hkeeps, hsent⟩ := hfits (not_givesUp_of_depth_le (Nat.le_trans hdepth (by decide)))
  refine ⟨hlarge, hheld, smaller, hkeeps, ?_⟩
  rcases hsent with ⟨hsame, hloses⟩ | ⟨hover, -⟩
  · exact .inl ⟨hsame, hloses hlarge⟩
  · exact .inr hover

end Cells

end BinaryStrings.Server.SizeGuard

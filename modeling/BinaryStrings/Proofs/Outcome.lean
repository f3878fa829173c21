import Mathlib.Data.List.Forall2

/-!
# Outcomes

Steps that can fail, one behind the other, give a result if every one of them does.
-/

namespace BinaryStrings

variable {α β ε ε' : Type}

/-- Two steps succeed if the first one does and the second one with its value. -/
theorem bind_eq_ok_iff {outcome : Except ε α} {next : α → Except ε β} {value : β} :
    outcome >>= next = .ok value ↔ ∃ found, outcome = .ok found ∧ next found = .ok value := by
  cases outcome <;> simp [bind, Except.bind]

/-- Another error does not change what succeeds. -/
theorem mapError_eq_ok_iff {outcome : Except ε α} {f : ε → ε'} {value : α} :
    outcome.mapError f = .ok value ↔ outcome = .ok value := by
  cases outcome <;> simp [Except.mapError]

/-- A value that is there was computed. -/
theorem eq_ok_of_toOption {outcome : Except ε α} {value : α}
    (h : outcome.toOption = some value) : outcome = .ok value := by
  cases outcome with
  | ok found => rw [Option.some.inj h]
  | error error => cases h

/-- A step that is refused in some case. -/
theorem ite_error_eq_ok_iff {p : Prop} [Decidable p] {error : ε} {outcome : Except ε α} {value : α} :
    (if p then .error error else outcome) = .ok value ↔ ¬ p ∧ outcome = .ok value := by
  split <;> simp_all

/-- The results for a list are those for its elements, one by one. -/
theorem forall₂_of_mapM_eq_ok {f : α → Except ε β} {list : List α} {values : List β}
    (h : list.mapM f = .ok values) : List.Forall₂ (fun x value => f x = .ok value) list values := by
  induction list generalizing values with
  | nil =>
    cases h
    exact .nil
  | cons first rest ih =>
    rw [List.mapM_cons, bind_eq_ok_iff] at h
    obtain ⟨value, hfirst, hrest⟩ := h
    obtain ⟨others, hothers, hvalues⟩ := bind_eq_ok_iff.1 hrest
    cases hvalues
    exact .cons hfirst (ih hothers)

/-- Values that exist one by one make a list. -/
theorem exists_forall₂ {R : α → β → Prop} {list : List α} (h : ∀ x ∈ list, ∃ value, R x value) :
    ∃ values, List.Forall₂ R list values := by
  induction list with
  | nil => exact ⟨[], .nil⟩
  | cons first rest ih =>
    rw [List.forall_mem_cons] at h
    obtain ⟨value, hfirst⟩ := h.1
    obtain ⟨values, hrest⟩ := ih h.2
    exact ⟨value :: values, .cons hfirst hrest⟩

/-- Every value of such a list comes from an element. -/
theorem exists_mem_of_forall₂ {R : α → β → Prop} {list : List α} {values : List β}
    (h : List.Forall₂ R list values) {value : β} (hvalue : value ∈ values) :
    ∃ x ∈ list, R x value := by
  induction h with
  | nil => cases hvalue
  | @cons x other list others hfirst _ ih =>
    rcases List.mem_cons.1 hvalue with rfl | hvalue
    · exact ⟨x, List.mem_cons_self, hfirst⟩
    · obtain ⟨y, hy, hrelated⟩ := ih hvalue
      exact ⟨y, List.mem_cons_of_mem _ hy, hrelated⟩

end BinaryStrings

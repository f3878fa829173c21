import BinaryStrings.Extraction.Basic

/-!
# The outcome of an extraction

An extraction either yields the report of all findings, or it ends with the failure of the first
section that fails.  Theorem `extract_eq` says so without the recursion over the labels and without
the log, and with it an extraction can be rewritten to what it yields.
-/

namespace BinaryStrings.Extraction

/-- The entries found in the section of a label, none when it is not there. -/
def findings (source : Source) (minLength : Int) (label : String) : List Entry :=
  match source.sectionAt label with
  | .ok region => region.entries label minLength
  | .error _ => []

theorem label_of_mem_findings (source : Source) (minLength : Int) (label : String) :
    ∀ entry ∈ findings source minLength label, entry.label = label := by
  intro entry hentry
  unfold findings at hentry
  split at hentry
  · obtain ⟨run, _, rfl⟩ := List.mem_map.1 hentry
    rfl
  · cases hentry

/-- The failure of the section of a label, if it fails. -/
def failureAt? (source : Source) (label : String) : Option Raised :=
  match source.sectionAt label with
  | .error (.failure raised) => some raised
  | _ => none

theorem failureAt?_eq_some_iff {source : Source} {label : String} {raised : Raised} :
    failureAt? source label = some raised ↔
      source.sectionAt label = .error (.failure raised) := by
  unfold failureAt?
  rcases source.sectionAt label with (reason | raised') | region <;> simp

theorem failureAt?_eq_none_iff {source : Source} {label : String} :
    failureAt? source label = none ↔
      ∀ raised, source.sectionAt label ≠ .error (.failure raised) := by
  simp only [Option.eq_none_iff_forall_ne_some, ne_eq, failureAt?_eq_some_iff]

/-- A section fails or gives its findings. -/
theorem scanSection_eq (source : Source) (minLength : Int) (label : String) :
    (scanSection minLength label (source.sectionAt label)).2 =
      match failureAt? source label with
      | some raised => .error raised
      | none => .ok (findings source minLength label) := by
  unfold failureAt? findings
  rcases source.sectionAt label with (reason | raised) | region
  · rfl
  · rfl
  · by_cases hempty : region.data.isEmpty
    · have hnil : region.data = [] := List.isEmpty_iff.1 hempty
      simp only [scanSection, Region.entries, hnil]
      rfl
    · simp only [scanSection, hempty]
      rfl

/-- Sections give their findings in turn, up to the first one that fails. -/
theorem scanSections_eq (source : Source) (minLength : Int) (labels : List String) :
    (scanSections source minLength labels).2 =
      match labels.findSome? (failureAt? source) with
      | some raised => .error raised
      | none => .ok (labels.flatMap (findings source minLength)) := by
  induction labels with
  | nil => rfl
  | cons label rest ih =>
    have hfirst := scanSection_eq source minLength label
    rw [List.findSome?_cons, scanSections]
    rcases hscan : scanSection minLength label (source.sectionAt label) with ⟨lines, _ | found⟩ <;>
      rw [hscan] at hfirst <;> cases hfailure : failureAt? source label <;>
      rw [hfailure] at hfirst <;> cases hfirst
    · rfl
    · rcases hrest : scanSections source minLength rest with ⟨more, _ | others⟩ <;>
        rw [hrest] at ih <;> cases hnext : rest.findSome? (failureAt? source) <;>
        rw [hnext] at ih <;> cases ih <;> rfl

/-- Sections that do not fail give their findings in turn. -/
theorem scanSections_eq_ok {source : Source} {labels : List String} (minLength : Int)
    (hsource : ∀ label ∈ labels, ∀ raised,
      source.sectionAt label ≠ .error (.failure raised)) :
    (scanSections source minLength labels).2 = .ok (labels.flatMap (findings source minLength)) := by
  have hnone : labels.findSome? (failureAt? source) = none :=
    List.findSome?_eq_none_iff.2 fun label hmem => failureAt?_eq_none_iff.2 (hsource label hmem)
  rw [scanSections_eq, hnone]

/-- What an extraction yields. -/
theorem extract_eq (source : Source) (minLength workers : Int) (labels : List String) :
    (extract source minLength workers labels).2 =
      if workers < 1 then .error (.workers workers)
      else
        match labels.findSome? (failureAt? source) with
        | some raised => .error (.failure raised)
        | none =>
          .ok (Report.ofFindings (labels.flatMap (findings source (effectiveLength minLength)))) := by
  have hscan := scanSections_eq source (effectiveLength minLength) labels
  unfold extract
  split
  · rfl
  · rcases hfound : scanSections source (effectiveLength minLength) labels with ⟨lines, _ | found⟩ <;>
      rw [hfound] at hscan <;> cases hfailure : labels.findSome? (failureAt? source) <;>
      rw [hfailure] at hscan <;> cases hscan <;> rfl

/-- An extraction by at least one worker yields a report unless a section fails, and it yields no
other report than that of all findings. -/
theorem extract_eq_ok_iff {source : Source} {minLength workers : Int} {labels : List String}
    (hworkers : 1 ≤ workers) {report : Report} :
    (extract source minLength workers labels).2 = .ok report ↔
      (∀ label ∈ labels, ∀ raised, source.sectionAt label ≠ .error (.failure raised)) ∧
        report =
          Report.ofFindings (labels.flatMap (findings source (effectiveLength minLength))) := by
  have hnone : labels.findSome? (failureAt? source) = none ↔
      ∀ label ∈ labels, ∀ raised, source.sectionAt label ≠ .error (.failure raised) := by
    simp only [List.findSome?_eq_none_iff, failureAt?_eq_none_iff]
  rw [extract_eq, if_neg (by omega), ← hnone]
  cases labels.findSome? (failureAt? source) with
  | some raised => simp
  | none => simp [eq_comm]

/-- An extraction by at least one worker fails as the first section that fails. -/
theorem extract_eq_failure_iff {source : Source} {minLength workers : Int} {labels : List String}
    (hworkers : 1 ≤ workers) {raised : Raised} :
    (extract source minLength workers labels).2 = .error (.failure raised) ↔
      ∃ before label behind, labels = before ++ label :: behind ∧
        source.sectionAt label = .error (.failure raised) ∧
        ∀ earlier ∈ before, ∀ other, source.sectionAt earlier ≠ .error (.failure other) := by
  have hfirst : labels.findSome? (failureAt? source) = some raised ↔
      ∃ before label behind, labels = before ++ label :: behind ∧
        source.sectionAt label = .error (.failure raised) ∧
        ∀ earlier ∈ before, ∀ other, source.sectionAt earlier ≠ .error (.failure other) := by
    simp only [List.findSome?_eq_some_iff, failureAt?_eq_some_iff, failureAt?_eq_none_iff]
  rw [extract_eq, if_neg (by omega), ← hfirst]
  cases labels.findSome? (failureAt? source) <;> simp

end BinaryStrings.Extraction

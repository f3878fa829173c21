import BinaryStrings.Proofs.Report.Findings
import Mathlib.Data.List.Sort

/-!
# Reports are determined by findings

What the report of a list of findings has to be can be said without the steps that make it: every
section and text that was found has one entry, its first finding, and entries are in the order of
their addresses, at one address in the order in which they were found.

There is only one such report.  So making a report of the entries of a report changes nothing, and
findings of what has been found before do not change it either.

Main results:

- Theorem `mem_firsts_iff`: the entries that are kept are the first findings of their keys.
- Theorem `IsReportOf.eq`: the description leaves no choice.
- Theorem `isReportOf_iff_and_absorbs`: the report of findings is the one that is described, and what
  follows for repeated findings.
-/

namespace BinaryStrings.Report

variable {found : List Entry} {entry a b : Entry} {report other : Report}

/-! ## The description -/

/-- One entry was found before another: its section and text occur first. -/
def FoundBefore (found : List Entry) (a b : Entry) : Prop :=
  (found.map Entry.key).idxOf a.key < (found.map Entry.key).idxOf b.key

instance (found : List Entry) (a b : Entry) : Decidable (FoundBefore found a b) :=
  inferInstanceAs (Decidable (_ < _))

/-- The order of the entries of a report: by address, and at one address as they were found. -/
def ComesBefore (found : List Entry) (a b : Entry) : Prop :=
  a.address < b.address ∨ a.address = b.address ∧ FoundBefore found a b

instance (found : List Entry) (a b : Entry) : Decidable (ComesBefore found a b) :=
  inferInstanceAs (Decidable (_ ∨ _))

/-- What the report of a list of findings has to be. -/
structure IsReportOf (found : List Entry) (report : Report) : Prop where
  /-- Every section and text that was found occurs exactly once. -/
  once : ∀ key ∈ found.map Entry.key, (report.entries.map Entry.key).count key = 1
  /-- An entry is the first finding of its section and text, so no other entry occurs. -/
  first : ∀ entry ∈ report.entries, found.find? (·.key == entry.key) = some entry
  ordered : report.entries.Pairwise (ComesBefore found)
  count_eq : report.count = report.entries.length

theorem ComesBefore.asymm (h : ComesBefore found a b) : ¬ ComesBefore found b a := by
  unfold ComesBefore FoundBefore at *
  omega

theorem ComesBefore.address_le (h : ComesBefore found a b) : a.address ≤ b.address := by
  unfold ComesBefore at h
  omega

/-- The entries of a report are in ascending order of their addresses. -/
theorem IsReportOf.sorted (h : IsReportOf found report) :
    report.entries.Pairwise fun a b => a.address ≤ b.address :=
  h.ordered.imp fun hab => hab.address_le

/-! ## First findings -/

/-- The entries that are kept are the first findings of their keys. -/
theorem mem_firsts_iff : entry ∈ firsts found ↔ found.find? (·.key == entry.key) = some entry := by
  induction found with
  | nil => simp
  | cons earliest rest ih =>
    rw [firsts_cons, List.mem_cons, List.mem_filter, bne_iff_ne, List.find?_cons]
    by_cases hkey : earliest.key = entry.key
    · simp [hkey, eq_comm]
    · have hne : entry ≠ earliest := fun heq => hkey (congrArg Entry.key heq.symm)
      rw [beq_eq_false_iff_ne.2 hkey, ih]
      simp [hne, Ne.symm hkey]

/-- Entries are kept in the order in which they were found. -/
theorem pairwise_firsts (found : List Entry) : (firsts found).Pairwise (FoundBefore found) := by
  induction found with
  | nil => exact List.Pairwise.nil
  | cons earliest rest ih =>
    have hlater : ∀ {entry : Entry}, entry ∈ (firsts rest).filter (·.key != earliest.key) →
        ((earliest :: rest).map Entry.key).idxOf entry.key =
          (rest.map Entry.key).idxOf entry.key + 1 := by
      intro entry hentry
      have hne := (List.mem_filter.1 hentry).2
      rw [bne_iff_ne] at hne
      rw [List.map_cons, List.idxOf_cons_ne _ hne.symm]
    rw [firsts_cons, List.pairwise_cons]
    constructor
    · intro entry hentry
      rw [FoundBefore, hlater hentry, List.map_cons, List.idxOf_cons_self]
      exact Nat.succ_pos _
    · refine (ih.sublist List.filter_sublist).imp_of_mem fun ha hb hab => ?_
      rw [FoundBefore, hlater ha, hlater hb]
      exact Nat.succ_lt_succ hab

/-! ## The report of findings -/

theorem isReportOf_ofFindings (found : List Entry) : IsReportOf found (ofFindings found) where
  once _ hkey := List.count_eq_one_of_mem (nodup_keys_ofFindings found) (key_mem_ofFindings_iff.2 hkey)
  first _ hentry := mem_firsts_iff.1 (mem_ofFindings.1 hentry)
  ordered := pairwise_ofFindings (pairwise_firsts found)
  count_eq := rfl

/-- The entries of a report are the first findings. -/
theorem IsReportOf.mem_iff (h : IsReportOf found report) :
    entry ∈ report.entries ↔ found.find? (·.key == entry.key) = some entry := by
  refine ⟨h.first entry, fun hfirst => ?_⟩
  have hkey : entry.key ∈ found.map Entry.key :=
    List.mem_map_of_mem (List.mem_of_find?_eq_some hfirst)
  have hcount : 0 < (report.entries.map Entry.key).count entry.key := by
    rw [h.once _ hkey]
    exact Nat.one_pos
  obtain ⟨listed, hlisted, heq⟩ := List.mem_map.1 (List.count_pos_iff.1 hcount)
  -- Both are the first finding of their key.
  have hsame := h.first listed hlisted
  rw [heq, hfirst] at hsame
  rw [Option.some.inj hsame]
  exact hlisted

/-- There is only one report of a list of findings. -/
theorem IsReportOf.eq (h : IsReportOf found report) (hother : IsReportOf found other) :
    report = other := by
  have hirrefl : Std.Irrefl (ComesBefore found) := ⟨fun _ hab => hab.asymm hab⟩
  have hantisymm : Std.Antisymm (ComesBefore found) := ⟨fun _ _ hab hba => absurd hba hab.asymm⟩
  have hentries : report.entries = other.entries :=
    h.ordered.eq_of_mem_iff hother.ordered fun {entry} => h.mem_iff.trans hother.mem_iff.symm
  cases report
  cases other
  exact congrArg Report.mk hentries

/-- A list of findings with another key each is kept as it is. -/
theorem firsts_eq_self (h : (found.map Entry.key).Nodup) : firsts found = found := by
  induction found with
  | nil => rfl
  | cons earliest rest ih =>
    rw [List.map_cons, List.nodup_cons] at h
    rw [firsts_cons, ih h.2]
    congr 1
    refine List.filter_eq_self.2 fun entry hentry => ?_
    rw [bne_iff_ne]
    exact fun heq => h.1 (heq ▸ List.mem_map_of_mem hentry)

/-- Findings with another key each that come by address are the entries of their report. -/
theorem ofFindings_eq_self (hnodup : (found.map Entry.key).Nodup)
    (hsorted : found.Pairwise fun a b => a.address ≤ b.address) : ofFindings found = ⟨found⟩ := by
  rw [ofFindings, firsts_eq_self hnodup, List.mergeSort_of_pairwise (hsorted.imp decide_eq_true)]

/-- A report is the report of its own entries. -/
theorem ofFindings_entries (found : List Entry) :
    ofFindings (ofFindings found).entries = ofFindings found :=
  ofFindings_eq_self (nodup_keys_ofFindings found) (isReportOf_ofFindings found).sorted

/-- Findings of what has been found before leave the report as it is. -/
theorem ofFindings_append {more : List Entry}
    (h : ∀ entry ∈ more, entry.key ∈ found.map Entry.key) :
    ofFindings (found ++ more) = ofFindings found := by
  have hhidden : (firsts more).filter
      (fun entry => !(found.map Entry.key).contains entry.key) = [] := by
    refine List.filter_eq_nil_iff.2 fun entry hentry => ?_
    simpa using h entry ((firsts_sublist more).subset hentry)
  rw [ofFindings, firsts_append, hhidden, List.append_nil, ofFindings]

/-- The report of a list of findings is the one report that the description fits: every section and text
once, with its first finding, by address, and at one address as found.  Making a report of its entries
gives it again, and so do findings with any more of what has been found. -/
theorem isReportOf_iff_and_absorbs (found : List Entry) :
    (∀ report, IsReportOf found report ↔ report = ofFindings found) ∧
      ofFindings (ofFindings found).entries = ofFindings found ∧
      ∀ more : List Entry, (∀ entry ∈ more, entry.key ∈ found.map Entry.key) →
        ofFindings (found ++ more) = ofFindings found := by
  refine ⟨fun report => ⟨fun h => h.eq (isReportOf_ofFindings found), ?_⟩,
    ofFindings_entries found, fun more hmore => ofFindings_append hmore⟩
  rintro rfl
  exact isReportOf_ofFindings found

/-- A text that is found again at a lower address keeps its first one, also if it is found once more;
two findings at one address stay in their order. -/
theorem isReportOf_iff_and_absorbs_repeated :
    let found : List Entry := [⟨"b-value", 7, ".text"⟩, ⟨"dup", 50, ".rodata"⟩,
      ⟨"a-value", 7, ".rodata"⟩, ⟨"dup", 5, ".rodata"⟩, ⟨"dup", 6, ".text"⟩]
    let report : Report := ⟨[⟨"dup", 6, ".text"⟩, ⟨"b-value", 7, ".text"⟩, ⟨"a-value", 7, ".rodata"⟩,
      ⟨"dup", 50, ".rodata"⟩]⟩
    IsReportOf found report ∧ ofFindings found = report ∧ ofFindings report.entries = report ∧
      ofFindings (found ++ [⟨"dup", 1, ".rodata"⟩]) = report := by
  intro found report
  obtain ⟨hiff, hentries, hmore⟩ := isReportOf_iff_and_absorbs found
  have hreport : IsReportOf found report := ⟨by decide, by decide, by decide, rfl⟩
  have heq := (hiff report).1 hreport
  have hrepeated := hmore [⟨"dup", 1, ".rodata"⟩] (by decide)
  rw [← heq] at hentries hrepeated
  exact ⟨hreport, heq.symm, hentries, hrepeated⟩

end BinaryStrings.Report

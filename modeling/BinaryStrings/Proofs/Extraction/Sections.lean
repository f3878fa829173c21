import BinaryStrings.Proofs.Extraction.Complete
import BinaryStrings.Proofs.Report.Restriction
import BinaryStrings.Report.Selection

/-!
# Sections are independent

What an extraction reports for a section does not depend on the other sections that it is asked for,
nor on their order.  Keeping the first finding of each text and sorting by address both work on the
findings of all sections together, and both go along with looking at one section only.

Theorem `extract_isSectionwise`: the part of a report that belongs to one label is the report of this
label alone, so lists of the same labels give the same entries and the same addresses.  Only entries
of different sections at one address can change places.
-/

namespace BinaryStrings

/-- Selecting one label keeps the entries of its section. -/
theorem Report.select_label (characters : Unicode.CharacterNames) (report : Report)
    (label : String) :
    report.select characters { Selection.all with labels := [label] } =
      .ok ⟨report.entries.filter (·.label == label)⟩ := by
  have hvalues : ∀ part : Report, part.withValue (fun _ => true) = part := by
    intro part
    simp [withValue]
  change Except.ok ((report.inSections [label]).withValue fun _ => true) = _
  rw [hvalues, inSections_singleton]

namespace Extraction

/-- What a list of labels gives is determined, section by section, by what its labels give. -/
theorem filter_label_eq_of_mem_iff (source : Source) (minLength : Int)
    {labels others : List String} (h : ∀ label, label ∈ others ↔ label ∈ labels) (label : String) :
    (Report.ofFindings (others.flatMap (findings source minLength))).entries.filter
        (·.label == label) =
      (Report.ofFindings (labels.flatMap (findings source minLength))).entries.filter
        (·.label == label) := by
  have hlabel := label_of_mem_findings source minLength
  by_cases hmem : label ∈ labels
  · rw [Report.filter_label_ofFindings hlabel hmem,
      Report.filter_label_ofFindings hlabel ((h label).2 hmem)]
  · have hnone : ∀ list : List String, label ∉ list →
        (Report.ofFindings (list.flatMap (findings source minLength))).entries.filter
          (·.label == label) = [] := by
      intro list hlist
      apply List.filter_eq_nil_iff.2
      intro entry hentry hat
      rw [beq_iff_eq] at hat
      exact hlist (hat ▸ Report.label_mem_of_mem_ofFindings hlabel hentry)
    rw [hnone labels hmem, hnone others (mt (h label).1 hmem)]

/-- Sections are independent.  An extraction by at least one worker yields a report unless one of its
sections fails.  If it yields one, then the part of a label is what the extraction of this label alone
yields; and a list of the same labels, in whatever order and however often they are repeated, yields
a report with the same entries and the same sequence of addresses, which is the same report if no two
entries of different sections share an address. -/
theorem extract_isSectionwise (characters : Unicode.CharacterNames) (source : Source)
    (minLength workers : Int) (labels : List String) (hworkers : 1 ≤ workers) :
    ((∃ report, (extract source minLength workers labels).2 = .ok report) ↔
      ∀ label ∈ labels, ∀ raised, source.sectionAt label ≠ .error (.failure raised)) ∧
    ∀ report, (extract source minLength workers labels).2 = .ok report →
      (∀ label ∈ labels, ∃ own, (extract source minLength workers [label]).2 = .ok own ∧
        report.select characters { Selection.all with labels := [label] } = .ok own) ∧
      ∀ others : List String, (∀ label, label ∈ others ↔ label ∈ labels) →
        ∃ other, (extract source minLength workers others).2 = .ok other ∧
          other.entries.Perm report.entries ∧
          other.entries.map Entry.address = report.entries.map Entry.address ∧
          ((∀ a ∈ report.entries, ∀ b ∈ report.entries, a.address = b.address →
            a.label = b.label) → other = report) := by
  constructor
  · simp only [extract_eq_ok_iff hworkers, exists_and_left, exists_eq, and_true]
  · intro report hreport
    obtain ⟨hsource, rfl⟩ := (extract_eq_ok_iff hworkers).1 hreport
    constructor
    · intro label hmem
      refine ⟨_, (extract_eq_ok_iff hworkers).2 ⟨?_, rfl⟩, ?_⟩
      · simpa using hsource label hmem
      · rw [Report.select_label,
          Report.filter_label_ofFindings (label_of_mem_findings source _) hmem,
          List.flatMap_singleton]
    · intro others hothers
      have hsections := filter_label_eq_of_mem_iff source (effectiveLength minLength) hothers
      have hperm := Report.perm_of_filter_label_eq hsections
      have hsorted := fun labels : List String => Report.pairwise_mergeSort_address
        (Report.firsts (labels.flatMap (findings source (effectiveLength minLength))))
      refine ⟨_, (extract_eq_ok_iff hworkers).2
        ⟨fun label hmem => hsource label ((hothers label).1 hmem), rfl⟩, hperm,
        Report.map_address_eq_of_perm hperm (hsorted others) (hsorted labels), ?_⟩
      intro hapart
      have heq := Report.eq_of_filter_label_eq (hsorted labels) (hsorted others)
        (fun label => (hsections label).symm) hapart
      exact congrArg Report.mk heq.symm

/-- Two sections, one of them asked for twice, in both orders. -/
theorem extract_isSectionwise_two :
    let source := Source.ofRegions [(".text", ⟨0x1000, Bytes.ofAscii "hello world"⟩),
      (".rodata", ⟨0x2000, Bytes.ofAscii "other text"⟩)]
    let labels := [".text", ".rodata", ".text"]
    let others := [".rodata", ".text"]
    let report : Report := ⟨[⟨"hello world", 0x1000, ".text"⟩, ⟨"other text", 0x2000, ".rodata"⟩]⟩
    (extract source 4 1 labels).2 = .ok report ∧
      (∃ own, (extract source 4 1 [".rodata"]).2 = .ok own ∧
        report.select .ascii { Selection.all with labels := [".rodata"] } = .ok own) ∧
      (∀ label, label ∈ others ↔ label ∈ labels) ∧
      (∀ a ∈ report.entries, ∀ b ∈ report.entries, a.address = b.address → a.label = b.label) ∧
      (extract source 4 1 others).2 = .ok report := by
  intro source labels others report
  have hsame : ∀ label, label ∈ others ↔ label ∈ labels := by
    intro label
    simp only [others, labels, List.mem_cons, List.not_mem_nil, or_false]
    tauto
  have hreport : (extract source 4 1 labels).2 = .ok report := by
    have hfound : (extract source 4 1 labels).2 =
        .ok (Report.ofFindings (report.entries ++ [⟨"hello world", 0x1000, ".text"⟩])) := rfl
    have hfirsts : Report.firsts (report.entries ++ [⟨"hello world", 0x1000, ".text"⟩]) =
        report.entries := by decide +kernel
    rw [hfound, Report.ofFindings, hfirsts, List.mergeSort_of_pairwise (by decide)]
  have hapart : ∀ a ∈ report.entries, ∀ b ∈ report.entries,
      a.address = b.address → a.label = b.label := by decide
  obtain ⟨hown, hothers⟩ := (extract_isSectionwise .ascii source 4 1 labels (by decide)).2 report hreport
  obtain ⟨other, hother, _, _, heq⟩ := hothers others hsame
  rw [heq hapart] at hother
  exact ⟨hreport, hown ".rodata" (by decide), hsame, hapart, hother⟩

end Extraction

end BinaryStrings

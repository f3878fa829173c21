import BinaryStrings.Proofs.Extraction.Complete
import BinaryStrings.Proofs.Report.Restriction

/-!
# The least length

The least length is compared inside both scanners, before texts are judged, repeated ones are left out
and the rest is sorted.  Still it only leaves texts out: where a run starts and ends does not depend
on it, all findings of one text have the same length, and the later steps go along with leaving texts
out.

Main results:

- Theorem `Scan.ascii_eq_filter` and `Scan.utf8_eq_filter`: a scanner with a higher least length
  reports the longer ones of the same runs.
- Theorem `Extraction.extract_eq_withValue`: so does an extraction with its entries.
-/

namespace BinaryStrings

/-! ## Runs -/

namespace Scan

variable (data : Bytes) {shorter longer : Int} (h : shorter ≤ longer)

include h

/-- Longer runs of ASCII are found among shorter ones. -/
theorem ascii_eq_filter :
    ascii data longer = (ascii data shorter).filter fun run => longer ≤ run.text.length := by
  apply eq_of_ascending (ascending_ascii data longer) ((ascending_ascii data shorter).filter _)
  intro run
  rw [List.mem_filter, mem_ascii_iff_isMaximalRun, mem_ascii_iff_isMaximalRun,
    ← String.length_toList, decide_eq_true_eq]
  constructor
  · rintro ⟨stop, hrun, hlength⟩
    exact ⟨⟨stop, hrun, h.trans hlength⟩, hlength⟩
  · rintro ⟨⟨stop, hrun, _⟩, hlength⟩
    exact ⟨stop, hrun, hlength⟩

/-- So are longer runs of other characters. -/
theorem utf8_eq_filter :
    utf8 data longer = (utf8 data shorter).filter fun run => longer ≤ run.text.length := by
  apply eq_of_ascending (ascending_utf8 data longer) ((ascending_utf8 data shorter).filter _)
  intro run
  rw [List.mem_filter, mem_utf8_iff, mem_utf8_iff, ← String.length_toList, decide_eq_true_eq]
  constructor
  · rintro ⟨stop, hrun, hlength, hwide⟩
    exact ⟨⟨stop, hrun, h.trans hlength, hwide⟩, hlength⟩
  · rintro ⟨⟨stop, hrun, _, hwide⟩, hlength⟩
    exact ⟨stop, hrun, hlength, hwide⟩

end Scan

/-! ## Findings -/

section Findings

variable {shorter longer : Int} (h : shorter ≤ longer)

include h

/-- So are the runs that read like text: length does not bear on that. -/
theorem Likely.runsOf_eq_filter (data : Bytes) :
    runsOf data longer = (runsOf data shorter).filter fun run => longer ≤ run.text.length := by
  unfold runsOf
  rw [Scan.ascii_eq_filter data h, Scan.utf8_eq_filter data h, ← List.filter_append,
    List.filter_comm]

/-- So are the entries of a region. -/
theorem Region.entries_eq_filter (region : Region) (label : String) :
    region.entries label longer =
      (region.entries label shorter).filter fun entry => longer ≤ entry.value.length := by
  unfold entries
  rw [Likely.runsOf_eq_filter h, List.filter_map]
  rfl

/-- So are the findings in a section. -/
theorem Extraction.findings_eq_filter (source : Source) (label : String) :
    findings source longer label =
      (findings source shorter label).filter fun entry => longer ≤ entry.value.length := by
  unfold findings
  cases source.sectionAt label with
  | error fault => rfl
  | ok region => exact region.entries_eq_filter h label

end Findings

namespace Extraction

/-- Raising the least length only leaves entries out.  The extraction fails as before, or it yields
those entries of the former report whose value has enough characters, at the same addresses, in the
same sections and in the same order. -/
theorem extract_eq_withValue (source : Source) {shorter longer : Int} (h : shorter ≤ longer)
    (workers : Int) (labels : List String) :
    (extract source longer workers labels).2 =
      (extract source shorter workers labels).2.map
        (·.withValue fun value => max longer 1 ≤ value.length) := by
  have hleast : effectiveLength shorter ≤ effectiveLength longer := by
    unfold effectiveLength
    omega
  have hfindings : labels.flatMap (findings source (effectiveLength longer)) =
      (labels.flatMap (findings source (effectiveLength shorter))).filter
        fun entry => effectiveLength longer ≤ entry.key.value.length := by
    rw [List.filter_flatMap]
    exact congrArg labels.flatMap (funext fun label => findings_eq_filter hleast source label)
  rw [extract_eq, extract_eq]
  by_cases hworkers : workers < 1
  · rw [if_pos hworkers, if_pos hworkers]
    rfl
  · rw [if_neg hworkers, if_neg hworkers]
    cases labels.findSome? (failureAt? source) with
    | some raised => rfl
    | none =>
      dsimp only
      rw [hfindings, Report.ofFindings_filter_key _
        fun key => decide (effectiveLength longer ≤ key.value.length)]
      rfl

/-- Of four entries the two longer ones are left: one that occurs twice, and one that comes before its
own end, which is shorter. -/
theorem extract_eq_withValue_nine :
    let data := Bytes.ofAscii "short" ++ [0] ++ Bytes.ofAscii "hello world" ++ [0] ++
      Bytes.ofAscii "caf" ++ [0xc3, 0xa9] ++ Bytes.ofAscii " au lait" ++ [0] ++
      Bytes.ofAscii "hello world"
    let source := Source.ofRegions [(".rodata", ⟨0x1000, data⟩)]
    (4 : Int) ≤ 9 ∧ ∃ report, (extract source 4 1 [".rodata"]).2 = .ok report ∧ report.count = 4 ∧
      (extract source 9 1 [".rodata"]).2 = .ok (report.withValue fun value => (9 : Int) ≤ value.length) ∧
      (report.withValue fun value => (9 : Int) ≤ value.length) =
        ⟨[⟨"hello world", 0x1006, ".rodata"⟩, ⟨"café au lait", 0x1012, ".rodata"⟩]⟩ := by
  intro data source
  have hleast : (4 : Int) ≤ 9 := by decide
  have hraised := extract_eq_withValue source hleast 1 [".rodata"]
  have hsource : ∀ label ∈ [".rodata"], ∀ raised,
      source.sectionAt label ≠ .error (.failure raised) :=
    fun label _ raised => Source.sectionAt_ofRegions_ne_failure _ label raised
  have hreport : (extract source 4 1 [".rodata"]).2 =
      .ok (Report.ofFindings ([".rodata"].flatMap (findings source 4))) :=
    (extract_eq_ok_iff le_rfl).2 ⟨hsource, rfl⟩
  have hlonger : (extract source 9 1 [".rodata"]).2 =
      .ok (Report.ofFindings ([".rodata"].flatMap (findings source 9))) :=
    (extract_eq_ok_iff le_rfl).2 ⟨hsource, rfl⟩
  rw [hreport] at hraised
  refine ⟨hleast, _, hreport, ?_, hraised, ?_⟩
  · rw [Report.count, Report.ofFindings, List.length_mergeSort]
    decide +kernel
  · have hfirsts : Report.firsts ([".rodata"].flatMap (findings source 9)) =
        [⟨"hello world", 0x1006, ".rodata"⟩, ⟨"café au lait", 0x1012, ".rodata"⟩] := by
      decide +kernel
    have hfound : Report.ofFindings ([".rodata"].flatMap (findings source 9)) =
        ⟨[⟨"hello world", 0x1006, ".rodata"⟩, ⟨"café au lait", 0x1012, ".rodata"⟩]⟩ := by
      rw [Report.ofFindings, hfirsts, List.mergeSort_of_pairwise (by decide)]
    have hsame := hraised.symm.trans hlonger
    exact (Except.ok.inj hsame).trans hfound

end Extraction

end BinaryStrings

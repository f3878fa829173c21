import BinaryStrings.Proofs.Extraction.Outcome
import BinaryStrings.Proofs.Report.Findings
import BinaryStrings.Proofs.Scan.Exact

/-!
# What an extraction reports

The report of an extraction is described by the bytes of the sections alone, without the scanners,
the joining of the sections and the removal of repeated texts.

`IsExtraction` is the description.  Theorem `extract_isExtraction` says that an extraction from a
source whose sections are there or unavailable yields such a report.  Its lowest addresses rest on
`pairwise_runsOf`: within a section a repeated text comes from one scanner, which finds its runs in
ascending order, since no text is an ASCII run in one place and a UTF-8 run in another.
-/

namespace BinaryStrings

/-! ## The runs of one section -/

namespace Likely

theorem mem_runsOf_iff {data : Bytes} {minLength : Int} {run : Run} :
    run ∈ runsOf data minLength ↔
      (Scan.IsAsciiRun data minLength run ∨ Scan.IsUtf8Run data minLength run) ∧
        isLikely run.text.toList = true := by
  unfold runsOf
  rw [List.mem_filter, List.mem_append, Scan.mem_ascii_iff, Scan.mem_utf8_iff]

/-- A text found again is found at a higher offset, and of two runs at one offset the ASCII run is
found before the UTF-8 run. -/
theorem pairwise_runsOf (data : Bytes) (minLength : Int) :
    (runsOf data minLength).Pairwise fun a b =>
      (a.text = b.text → a.offset < b.offset) ∧
        (a.offset = b.offset →
          Scan.IsAsciiRun data minLength a ∧ Scan.IsUtf8Run data minLength b) := by
  unfold runsOf
  refine List.Pairwise.sublist List.filter_sublist ?_
  rw [List.pairwise_append]
  refine ⟨?_, ?_, ?_⟩
  · refine (Scan.ascending_ascii data minLength).imp fun hlt => ?_
    exact ⟨fun _ => hlt, fun heq => absurd heq (Nat.ne_of_lt hlt)⟩
  · refine (Scan.ascending_utf8 data minLength).imp fun hlt => ?_
    exact ⟨fun _ => hlt, fun heq => absurd heq (Nat.ne_of_lt hlt)⟩
  · intro a ha b hb
    have hwide := Scan.mem_utf8_iff.1 hb
    refine ⟨fun htext => ?_, fun _ => ⟨Scan.mem_ascii_iff.1 ha, hwide⟩⟩
    obtain ⟨_, _, _, hwide⟩ := hwide
    rw [← htext] at hwide
    exact absurd hwide (Scan.not_isWide_of_mem_ascii ha)

end Likely

/-- Regions that are given are there or unavailable. -/
theorem Source.sectionAt_ofRegions_ne_failure (regions : List (String × Region))
    (label : String) (raised : Raised) :
    (ofRegions regions).sectionAt label ≠ .error (.failure raised) := by
  dsimp only [ofRegions]
  split
  · simp
  · split <;> simp

namespace Extraction

theorem mem_findings_iff {source : Source} {minLength : Int} {label : String} {entry : Entry} :
    entry ∈ findings source minLength label ↔
      ∃ region, source.sectionAt label = .ok region ∧
        ∃ run ∈ Likely.runsOf region.data minLength,
          entry = ⟨run.text, region.base + run.offset, label⟩ := by
  unfold findings
  cases hsection : source.sectionAt label with
  | error fault => simp
  | ok region => simp [Region.entries, eq_comm]

/-- The runs of a section decide the order of its findings. -/
theorem pairwise_findings {source : Source} {minLength : Int} {label : String} {region : Region}
    (hsection : source.sectionAt label = .ok region) :
    (findings source minLength label).Pairwise fun a b =>
      (a.key = b.key → a.address < b.address) ∧
        (a.address = b.address → ∃ offset : Nat, a.address = region.base + offset ∧
          Scan.IsAsciiRun region.data minLength ⟨a.value, offset⟩ ∧
            Scan.IsUtf8Run region.data minLength ⟨b.value, offset⟩) := by
  unfold findings
  rw [hsection]
  refine List.Pairwise.map _ ?_ (Likely.pairwise_runsOf region.data minLength)
  rintro a b ⟨htext, hoffset⟩
  constructor
  · intro hkey
    have hlt := htext (congrArg Entry.Key.value hkey)
    dsimp only
    omega
  · dsimp only
    intro haddress
    have heq : a.offset = b.offset := by omega
    obtain ⟨hascii, hutf8⟩ := hoffset heq
    refine ⟨a.offset, rfl, hascii, ?_⟩
    rw [heq]
    exact hutf8

/-! ## The whole report -/

/-- A run that is reported for a section, of either kind. -/
def IsRun (data : Bytes) (minLength : Int) (run : Run) : Prop :=
  Scan.IsAsciiRun data minLength run ∨ Scan.IsUtf8Run data minLength run

/-- What the report of some sections of a source has to be. -/
structure IsExtraction (source : Source) (minLength : Int) (labels : List String)
    (report : Report) : Prop where
  /-- A text is reported for a section exactly when it is a likely run of its bytes. -/
  mem_iff : ∀ label value, (∃ address, ⟨value, address, label⟩ ∈ report.entries) ↔
    label ∈ labels ∧ ∃ region, source.sectionAt label = .ok region ∧ region.data ≠ [] ∧
      Likely.isLikely value.toList = true ∧
        ∃ offset, IsRun region.data (max minLength 1) ⟨value, offset⟩
  /-- There is one entry for each section and text. -/
  nodup : (report.entries.map Entry.key).Nodup
  /-- Its address is that of the first run with this text. -/
  lowest : ∀ entry ∈ report.entries, ∀ region, source.sectionAt entry.label = .ok region →
    ∃ offset : Nat, entry.address = region.base + offset ∧
      IsRun region.data (max minLength 1) ⟨entry.value, offset⟩ ∧
        ∀ other, IsRun region.data (max minLength 1) ⟨entry.value, other⟩ → offset ≤ other
  /-- Entries ascend by address, then by the first place of the label; of two at one place of a
  section the ASCII run comes before the UTF-8 run. -/
  ordered : report.entries.Pairwise fun a b =>
    a.address < b.address ∨ a.address = b.address ∧
      (labels.idxOf a.label < labels.idxOf b.label ∨ a.label = b.label ∧
        ∃ (region : Region) (offset : Nat), source.sectionAt a.label = .ok region ∧
          a.address = region.base + offset ∧
            Scan.IsAsciiRun region.data (max minLength 1) ⟨a.value, offset⟩ ∧
              Scan.IsUtf8Run region.data (max minLength 1) ⟨b.value, offset⟩)
  count_eq : report.count = report.entries.length

/-- The texts found in a section, said by its bytes. -/
theorem exists_mem_findings_iff {source : Source} {minLength : Int} {label value : String} :
    (∃ address, ⟨value, address, label⟩ ∈ findings source minLength label) ↔
      ∃ region, source.sectionAt label = .ok region ∧ region.data ≠ [] ∧
        Likely.isLikely value.toList = true ∧
          ∃ offset, IsRun region.data minLength ⟨value, offset⟩ := by
  simp only [mem_findings_iff, Likely.mem_runsOf_iff, Entry.mk.injEq]
  constructor
  · rintro ⟨_, region, hsection, ⟨text, offset⟩, ⟨hrun, hlikely⟩, rfl, _, _⟩
    refine ⟨region, hsection, ?_, hlikely, offset, hrun⟩
    intro hnil
    rw [hnil] at hrun
    rcases hrun with ⟨stop, hinterval, _⟩ | ⟨stop, hinterval, _⟩
    · have hstart := hinterval.start_lt_stop
      have hstop := hinterval.stop_le_length
      simp only [List.length_nil] at hstop
      omega
    · refine hinterval.text_ne_nil (Utf8.encode_eq_nil_iff.1 ?_)
      rw [← hinterval.spelled]
      simp [Bytes.slice]
  · rintro ⟨region, hsection, _, hlikely, offset, hrun⟩
    exact ⟨region.base + offset, region, hsection, ⟨value, offset⟩, ⟨hrun, hlikely⟩, rfl, rfl,
      trivial⟩

/-- The order that the runs of each section give to its findings. -/
theorem pairwise_findings_of_address_eq (source : Source) (minLength : Int) (label : String) :
    (findings source minLength label).Pairwise fun a b => a.address = b.address →
      ∃ (region : Region) (offset : Nat), source.sectionAt a.label = .ok region ∧
        a.address = region.base + offset ∧
          Scan.IsAsciiRun region.data minLength ⟨a.value, offset⟩ ∧
            Scan.IsUtf8Run region.data minLength ⟨b.value, offset⟩ := by
  cases hsection : source.sectionAt label with
  | error fault =>
    have hnil : findings source minLength label = [] := by rw [findings, hsection]
    rw [hnil]
    exact List.Pairwise.nil
  | ok region =>
    refine (pairwise_findings hsection).imp_of_mem fun ha _ hab haddress => ?_
    obtain ⟨offset, hoffset⟩ := hab.2 haddress
    rw [label_of_mem_findings _ _ _ _ ha]
    exact ⟨region, offset, hsection, hoffset⟩

/-- The entry kept for a section and a text has the offset of the first run with this text. -/
theorem lowest_of_mem_firsts {source : Source} {minLength : Int} {entry : Entry} {region : Region}
    (hentry : entry ∈ Report.firsts (findings source minLength entry.label))
    (hsection : source.sectionAt entry.label = .ok region) :
    ∃ offset : Nat, entry.address = region.base + offset ∧
      IsRun region.data minLength ⟨entry.value, offset⟩ ∧
        ∀ other, IsRun region.data minLength ⟨entry.value, other⟩ → offset ≤ other := by
  obtain ⟨region', hsection', run, hrun, heq⟩ :=
    mem_findings_iff.1 ((Report.firsts_sublist _).subset hentry)
  rw [hsection] at hsection'
  cases hsection'
  obtain ⟨hkind, hlikely⟩ := Likely.mem_runsOf_iff.1 hrun
  have hvalue : entry.value = run.text := congrArg Entry.value heq
  have haddress : entry.address = region.base + run.offset := congrArg Entry.address heq
  refine ⟨run.offset, haddress, hvalue ▸ hkind, ?_⟩
  intro other hother
  -- A run with the same text is a finding with the same key, and not the first one of it.
  have hmem : (⟨entry.value, region.base + other, entry.label⟩ : Entry) ∈
      findings source minLength entry.label :=
    mem_findings_iff.2 ⟨region, hsection, ⟨entry.value, other⟩,
      Likely.mem_runsOf_iff.2 ⟨hother, hvalue ▸ hlikely⟩, rfl⟩
  have hrelated := Report.related_of_mem_firsts
    ((pairwise_findings hsection).imp fun hab => hab.1) hentry hmem rfl
  rcases hrelated with hsame | hlt
  · have hsame' : region.base + (other : Int) = entry.address := congrArg Entry.address hsame
    omega
  · dsimp only at hlt
    omega

theorem isExtraction_ofFindings (source : Source) (minLength : Int) (labels : List String) :
    IsExtraction source minLength labels
      (Report.ofFindings (labels.flatMap (findings source (max minLength 1)))) := by
  have hlabel := label_of_mem_findings source (max minLength 1)
  refine ⟨?_, Report.nodup_keys_ofFindings _, ?_, ?_, rfl⟩
  · intro label value
    rw [← Report.mem_map_key_iff, Report.key_mem_ofFindings_iff, Report.mem_map_key_iff,
      ← exists_mem_findings_iff]
    constructor
    · rintro ⟨address, hmem⟩
      obtain ⟨hmem, hentry⟩ := Report.mem_findings_of_mem_flatMap hlabel hmem
      exact ⟨hmem, address, hentry⟩
    · rintro ⟨hmem, address, hentry⟩
      exact ⟨address, List.mem_flatMap.2 ⟨label, hmem, hentry⟩⟩
  · intro entry hentry region hsection
    have hfirst := Report.mem_firsts_findings hlabel (Report.mem_ofFindings.1 hentry)
    exact lowest_of_mem_firsts hfirst hsection
  · refine (Report.pairwise_ofFindings (Report.pairwise_firsts_flatMap hlabel
      (pairwise_findings_of_address_eq source (max minLength 1)) labels)).imp fun hab => ?_
    exact hab.imp_right fun ⟨heq, horder⟩ => ⟨heq, horder.imp_right fun ⟨hsame, hplace⟩ =>
      ⟨hsame, hplace heq⟩⟩

/-- An extraction with at least one worker from a source whose sections are there or unavailable
yields a report, and the report is what the bytes of the sections say. -/
theorem extract_isExtraction (source : Source) (minLength workers : Int) (labels : List String)
    (hworkers : 1 ≤ workers)
    (hsource : ∀ label ∈ labels, ∀ raised,
      source.sectionAt label ≠ .error (.failure raised)) :
    ∃ report, (extract source minLength workers labels).2 = .ok report ∧
      IsExtraction source minLength labels report := by
  refine ⟨_, ?_, isExtraction_ofFindings source minLength labels⟩
  have hscan := scanSections_eq_ok (effectiveLength minLength) hsource
  unfold extract
  rw [if_neg (by omega)]
  split
  · rename_i hfail
    rw [hfail] at hscan
    cases hscan
  · rename_i lines found hfound
    rw [hfound] at hscan
    cases hscan
    rfl

/-- A section with an ASCII run and, one byte past it, a UTF-8 run; a label is asked for twice and
another one has no section. -/
theorem extract_isExtraction_of_ascii_and_utf8 :
    let data : Bytes := [0x6d, 0x61, 0x69, 0x6e, 0x00, 0x63, 0x61, 0x66, 0xc3, 0xa9, 0x00]
    let source := Source.ofRegions [(".rodata", ⟨0x1000, data⟩), (".data", ⟨0x2000, []⟩)]
    let labels := [".data", ".rodata", ".bss", ".rodata"]
    (∀ label ∈ labels, ∀ raised, source.sectionAt label ≠ .error (.failure raised)) ∧
      ∃ report, (extract source 4 2 labels).2 = .ok report ∧
        IsExtraction source 4 labels report := by
  intro data source labels
  have hsource : ∀ label ∈ labels, ∀ raised,
      source.sectionAt label ≠ .error (.failure raised) :=
    fun label _ raised => Source.sectionAt_ofRegions_ne_failure _ label raised
  exact ⟨hsource, extract_isExtraction source 4 2 labels (by decide) hsource⟩

end Extraction

end BinaryStrings

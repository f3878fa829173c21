import BinaryStrings.Proofs.Extraction.Outcome
import BinaryStrings.Proofs.Report.Findings
import BinaryStrings.Proofs.Scan.Separation

/-!
# Padded sections

Zero bytes are control bytes, so padding a section with them adds nothing to what is found in it.  Zeros
at its end change no entry, and zeros in front of it move its entries by their number.

Main results:

- Theorem `Region.entries_padded`: the entries of a padded section.
- Theorem `Extraction.extract_of_padded`: the report of a source with a padded section.
- Theorem `Extraction.separated_and_padded`: both, with the scanners on buffers that a control byte
  separates.
-/

namespace BinaryStrings

/-! ## Sections -/

/-- A section with zeros in front of its bytes and behind them, at its address. -/
def Region.padded (front back : Nat) (region : Region) : Region :=
  ⟨region.base, List.replicate front 0 ++ region.data ++ List.replicate back 0⟩

/-- The entry some bytes further on. -/
def Entry.movedBy (distance : Nat) (entry : Entry) : Entry :=
  { entry with address := entry.address + distance }

theorem Entry.movedBy_zero : Entry.movedBy 0 = id := by
  funext entry
  simp [movedBy]

theorem Scan.isControlByte_zero : IsControlByte 0 :=
  .inl (by decide)

/-- The likely texts of padded bytes. -/
theorem Likely.runsOf_padded (front back : Nat) (data : Bytes) (minLength : Int) :
    runsOf (List.replicate front 0 ++ data ++ List.replicate back 0) minLength =
      (runsOf data minLength).map (Run.movedBy front) := by
  have hscan : ∀ {scan : Bytes → Int → List Run}, Scan.Separates scan 0 →
      scan [] minLength = [] →
      scan (List.replicate front 0 ++ data ++ List.replicate back 0) minLength =
        (scan data minLength).map (Run.movedBy front) := fun h hnil => by
    rw [h.append_replicate hnil, h.replicate_append hnil]
  unfold runsOf
  rw [hscan (Scan.separates_ascii Scan.isControlByte_zero) rfl,
    hscan (Scan.separates_utf8 Scan.isControlByte_zero) rfl, ← List.map_append, List.filter_map]
  rfl

/-- Padding moves the entries of a section by the number of zeros in front. -/
theorem Region.entries_padded (region : Region) (front back : Nat) (label : String)
    (minLength : Int) : (region.padded front back).entries label minLength =
      (region.entries label minLength).map (Entry.movedBy front) := by
  unfold entries padded
  rw [Likely.runsOf_padded, List.map_map, List.map_map]
  refine List.map_congr_left fun run _ => ?_
  simp only [Function.comp_apply, Run.movedBy, Entry.movedBy, Entry.mk.injEq, true_and, and_true]
  omega

/-! ## Reports -/

/-- The entry, moved if it belongs to a section. -/
def Entry.movedIn (label : String) (distance : Nat) (entry : Entry) : Entry :=
  if entry.label = label then entry.movedBy distance else entry

@[simp] theorem Entry.key_movedIn (label : String) (distance : Nat) (entry : Entry) :
    (entry.movedIn label distance).key = entry.key := by
  unfold movedIn
  split <;> rfl

theorem Entry.movedIn_zero (label : String) : Entry.movedIn label 0 = id := by
  funext entry
  simp [movedIn, movedBy_zero]

namespace Report

/-- Which findings are kept does not depend on addresses. -/
theorem firsts_map {move : Entry → Entry} (hmove : ∀ entry, (move entry).key = entry.key)
    (found : List Entry) : firsts (found.map move) = (firsts found).map move := by
  induction found with
  | nil => rfl
  | cons entry rest ih =>
    rw [List.map_cons, firsts_cons, firsts_cons, List.map_cons, ih, List.filter_map]
    simp only [Function.comp_def, hmove]

theorem perm_ofFindings_map {move : Entry → Entry} (hmove : ∀ entry, (move entry).key = entry.key)
    (found : List Entry) :
    (ofFindings (found.map move)).entries.Perm ((ofFindings found).entries.map move) := by
  unfold ofFindings
  rw [firsts_map hmove]
  exact (List.mergeSort_perm _ _).trans ((List.mergeSort_perm _ _).symm.map move)

end Report

namespace Extraction

/-- What a section gives and what it gives when it is padded.  One that was empty may be there as zeros
alone. -/
inductive IsPadded (front back : Nat) : SectionResult → SectionResult → Prop
  | contents (region : Region) : IsPadded front back (.ok region) (.ok (region.padded front back))
  | zeros (reason : Unavailable) (base : Int) : IsPadded front back (.error (.unavailable reason))
    (.ok (Region.padded front back ⟨base, []⟩))

/-- A source that differs from another one in the padding of one section. -/
structure IsPaddedIn (label : String) (front back : Nat) (source padded : Source) : Prop where
  at_label : IsPadded front back (source.sectionAt label) (padded.sectionAt label)
  elsewhere : ∀ other, other ≠ label → padded.sectionAt other = source.sectionAt other

namespace IsPaddedIn

variable {label : String} {front back : Nat} {source padded : Source}

/-- The findings in a padded section are moved. -/
theorem findings_eq (h : IsPaddedIn label front back source padded) (minLength : Int)
    (other : String) : findings padded minLength other =
      (findings source minLength other).map (Entry.movedIn label front) := by
  have hlabel := label_of_mem_findings source minLength other
  by_cases hother : other = label
  · subst hother
    have hmoved : (findings source minLength other).map (Entry.movedIn other front) =
        (findings source minLength other).map (Entry.movedBy front) :=
      List.map_congr_left fun entry hentry => if_pos (hlabel entry hentry)
    rw [hmoved]
    have hsection := h.at_label
    unfold findings
    generalize source.sectionAt other = given, padded.sectionAt other = found at hsection ⊢
    cases hsection with
    | contents region => exact region.entries_padded front back other minLength
    | zeros reason base => exact Region.entries_padded ⟨base, []⟩ front back other minLength
  · have hsame : (findings source minLength other).map (Entry.movedIn label front) =
        findings source minLength other := by
      refine (List.map_congr_left fun entry hentry => if_neg ?_).trans (List.map_id _)
      rw [hlabel entry hentry]
      exact hother
    rw [hsame]
    unfold findings
    rw [h.elsewhere other hother]

/-- Padding makes no section fail and none succeed. -/
theorem failureAt?_eq (h : IsPaddedIn label front back source padded) :
    failureAt? padded = failureAt? source := by
  funext other
  by_cases hother : other = label
  · subst hother
    have hsection := h.at_label
    unfold failureAt?
    generalize source.sectionAt other = given, padded.sectionAt other = found at hsection ⊢
    cases hsection <;> rfl
  · unfold failureAt?
    rw [h.elsewhere other hother]

end IsPaddedIn

/-- What becomes of the outcome of an extraction when the entries of a section are moved: they are in the
report again, in ascending order of their new addresses, and what fails still does. -/
inductive IsMoved (label : String) (distance : Nat) : Except Error Report → Except Error Report → Prop
  | report {report moved : Report}
    (perm : moved.entries.Perm (report.entries.map (Entry.movedIn label distance)))
    (ascending : moved.entries.Pairwise fun a b => a.address ≤ b.address) :
    IsMoved label distance (.ok report) (.ok moved)
  | error (error : Error) : IsMoved label distance (.error error) (.error error)

variable {label : String} {front back : Nat} {source padded : Source}

/-- The outcome of an extraction from a source with a padded section. -/
theorem extract_of_padded (h : IsPaddedIn label front back source padded)
    (minLength workers : Int) (labels : List String) :
    IsMoved label front (extract source minLength workers labels).2
      (extract padded minLength workers labels).2 := by
  have hfindings : labels.flatMap (findings padded (effectiveLength minLength)) =
      (labels.flatMap (findings source (effectiveLength minLength))).map
        (Entry.movedIn label front) := by
    rw [List.map_flatMap]
    exact congrArg labels.flatMap (funext (h.findings_eq _))
  rw [extract_eq, extract_eq, h.failureAt?_eq, hfindings]
  split
  · exact .error _
  · cases labels.findSome? (failureAt? source) with
    | some raised => exact .error _
    | none =>
      exact .report (Report.perm_ofFindings_map (Entry.key_movedIn label front) _)
        (Report.pairwise_mergeSort_address _)

/-- Zeros behind a section change no report. -/
theorem extract_of_padded_behind (h : IsPaddedIn label 0 back source padded)
    (minLength workers : Int) (labels : List String) :
    (extract padded minLength workers labels).2 = (extract source minLength workers labels).2 := by
  have hfindings : findings padded (effectiveLength minLength) =
      findings source (effectiveLength minLength) := by
    funext other
    rw [h.findings_eq, Entry.movedIn_zero, List.map_id]
  rw [extract_eq, extract_eq, h.failureAt?_eq, hfindings]

/-- A control byte separates buffers completely: both scanners find what they find in front of it, and
what they find behind it at offsets that count from there.  So zeros at the end of a section change no
entry, and zeros in front of it move every entry by their number; the report of a source changes
accordingly, whatever else is in it. -/
theorem separated_and_padded (byte : UInt8) (hbyte : Scan.IsControlByte byte) :
    (∀ before behind minLength, Scan.ascii (before ++ byte :: behind) minLength =
      Scan.ascii before minLength ++
        (Scan.ascii behind minLength).map fun run => ⟨run.text, run.offset + (before.length + 1)⟩) ∧
    (∀ before behind minLength, Scan.utf8 (before ++ byte :: behind) minLength =
      Scan.utf8 before minLength ++
        (Scan.utf8 behind minLength).map fun run => ⟨run.text, run.offset + (before.length + 1)⟩) ∧
    (∀ base data count label minLength,
      Region.entries ⟨base, data ++ List.replicate count 0⟩ label minLength =
        Region.entries ⟨base, data⟩ label minLength) ∧
    (∀ base data count label minLength,
      Region.entries ⟨base, List.replicate count 0 ++ data⟩ label minLength =
        (Region.entries ⟨base, data⟩ label minLength).map fun entry =>
          ⟨entry.value, entry.address + count, entry.label⟩) ∧
    ∀ source padded label front back, IsPaddedIn label front back source padded →
      ∀ minLength workers labels,
        IsMoved label front (extract source minLength workers labels).2
          (extract padded minLength workers labels).2 ∧
        (front = 0 → (extract padded minLength workers labels).2 =
          (extract source minLength workers labels).2) := by
  refine ⟨Scan.separates_ascii hbyte, Scan.separates_utf8 hbyte, ?_, ?_, ?_⟩
  · intro base data count label minLength
    have hpadded := Region.entries_padded ⟨base, data⟩ 0 count label minLength
    rwa [Entry.movedBy_zero, List.map_id] at hpadded
  · intro base data count label minLength
    have hpadded := Region.entries_padded ⟨base, data⟩ count 0 label minLength
    rwa [Region.padded, List.replicate_zero, List.append_nil] at hpadded
  · intro source padded label front back h minLength workers labels
    refine ⟨extract_of_padded h minLength workers labels, ?_⟩
    rintro rfl
    exact extract_of_padded_behind h minLength workers labels

/-- A character that is cut off in front of a zero byte and one whose end stands behind it do not meet
across it, and a section that ends in a character cut off can be padded on both sides. -/
theorem separated_and_padded_cut :
    let cut : Bytes := [0xC3, 0xA9, 0x61, 0xC3]
    let stray : Bytes := [0xA9, 0x62, 0xC3, 0xA9]
    let source : Source := .ofRegions [(Label.constants, ⟨0x100, cut⟩)]
    let padded : Source := .ofRegions [(Label.constants, Region.padded 1 2 ⟨0x100, cut⟩)]
    Scan.IsControlByte 0 ∧
      Scan.utf8 (cut ++ 0 :: stray) 2 = [⟨"éa", 0⟩, ⟨"bé", 6⟩] ∧
      IsPaddedIn Label.constants 1 2 source padded ∧
      IsMoved Label.constants 1 (extract source 2 1 [Label.constants]).2
        (extract padded 2 1 [Label.constants]).2 := by
  intro cut stray source padded
  have hpadded : IsPaddedIn Label.constants 1 2 source padded := by
    refine ⟨.contents ⟨0x100, cut⟩, fun other hother => ?_⟩
    have hlookup : ∀ region : Region, [(Label.constants, region)].lookup other = none :=
      fun region => by simpa using hother
    simp only [source, padded, Source.ofRegions, hlookup]
  obtain ⟨-, hutf8, -, -, hreport⟩ := separated_and_padded 0 Scan.isControlByte_zero
  refine ⟨Scan.isControlByte_zero, ?_, hpadded, (hreport _ _ _ _ _ hpadded 2 1 _).1⟩
  rw [hutf8]
  decide

end Extraction

end BinaryStrings

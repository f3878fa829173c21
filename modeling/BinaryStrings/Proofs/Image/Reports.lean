import BinaryStrings.Image.Open
import BinaryStrings.Proofs.Extraction.Complete
import BinaryStrings.Proofs.FileTree.Access
import BinaryStrings.Proofs.Scan.Spans

/-!
# Reports of files

A file that can be opened has a report unless one of its sections fails, and the report is the same for
every number of workers.  The bytes of each of its entries lie in the section that it names.

A file that cannot be opened for what it is is rejected.  Other errors of opening come from a library, or
from a file that the program may not open.  From libraries that raise nothing but what is expected of
them, and a file that may be opened, comes no such error and no failing section.

Main results:

- Theorem `Extraction.extract_declared`: what extracting the declared sections of a source comes to.
- Theorem `Source.mem_report`: where an entry lies.
- Theorem `OpenFile.isRejection_or_raised`: why a file cannot be opened.
- Theorem `Readers.RaiseAsExpected.openSource`: what comes of libraries that raise as expected.
-/

namespace BinaryStrings

/-- The exception of the first declared section that fails. -/
def Source.failure? (source : Source) : Option Raised :=
  Label.declared.findSome? (Extraction.failureAt? source)

/-- There is no such exception unless a declared section fails. -/
theorem Source.failure?_eq_none_iff {source : Source} : source.failure? = none ↔
    ∀ label ∈ Label.declared, ∀ raised, source.sectionAt label ≠ .error (.failure raised) := by
  simp only [failure?, List.findSome?_eq_none_iff, Extraction.failureAt?_eq_none_iff]

/-- The report of all declared sections. -/
def Source.report (source : Source) (minLength : Int) : Report :=
  .ofFindings (Label.declared.flatMap
    (Extraction.findings source (Extraction.effectiveLength minLength)))

/-- An extraction by at least one worker yields the report of the source, unless a section fails. -/
theorem Extraction.extract_declared {workers : Int} (hworkers : 1 ≤ workers) (source : Source)
    (minLength : Int) :
    (extract source minLength workers Label.declared).2 =
      match source.failure? with
      | some raised => .error (.failure raised)
      | none => .ok (source.report minLength) := by
  rw [extract_eq, if_neg (by omega)]
  rfl

/-! ## Where entries lie -/

/-- A run that is reported ends within the data. -/
theorem Likely.stop_le_length {data : Bytes} {minLength : Int} {run : Run}
    (h : run ∈ runsOf data minLength) : run.stop ≤ data.length := by
  rcases List.mem_append.1 (List.mem_of_mem_filter h) with hascii | hutf8
  · exact (Scan.isMaximalRun_of_mem_ascii hascii).stop_le_length
  · exact (Scan.isMaximalRun_of_mem_utf8 hutf8).stop_le_length

/-- The bytes of an entry lie in the region. -/
structure Region.Holds (region : Region) (entry : Entry) : Prop where
  base_le : region.base ≤ entry.address
  stop_le : entry.address + (Utf8.encode entry.value.toList).length ≤
    region.base + region.data.length

/-- An entry lies in the section that it names. -/
theorem Source.mem_report {source : Source} {minLength : Int} {entry : Entry}
    (h : entry ∈ (source.report minLength).entries) :
    entry.label ∈ Label.declared ∧
      ∃ region, source.sectionAt entry.label = .ok region ∧ region.Holds entry := by
  have hfound := (Report.firsts_sublist _).subset (Report.mem_ofFindings.1 h)
  obtain ⟨hlabel, hentry⟩ := Report.mem_findings_of_mem_flatMap
    (Extraction.label_of_mem_findings source _) hfound
  obtain ⟨region, hsection, run, hrun, heq⟩ := Extraction.mem_findings_iff.1 hentry
  have hstop := Likely.stop_le_length hrun
  refine ⟨hlabel, region, hsection, ?_, ?_⟩ <;> rw [heq] <;> dsimp only
  · omega
  · unfold Run.stop at hstop
    omega

/-! ## Opening -/

/-- A mode is known by its name. -/
@[simp] theorem OpenMode.ofName?_name (mode : OpenMode) : ofName? mode.name = some mode := by
  rcases mode with _ | format | _
  · decide
  · cases format <;> decide
  · decide

namespace OpenFile

variable {readers : Readers} {path : String} {file : Except FileError Bytes} {error : OpenError}

/-- The file is rejected, or an exception is raised that is not expected. -/
def IsRejectionOrRaised (error : OpenError) : Prop :=
  error.isRejection = true ∨ ∃ raised, error = .raised raised

/-- An exception of a library rejects the file or is raised. -/
theorem isRejectionOrRaised_errorFor {rejected : String → OpenError}
    (hrejected : ∀ reason, (rejected reason).isRejection = true) (raised : Raised) :
    IsRejectionOrRaised (errorFor rejected raised) := by
  unfold errorFor
  split
  · exact .inl (hrejected _)
  · exact .inr ⟨_, rfl⟩

/-- A format that is known rejects a file or raises an exception. -/
theorem isRejectionOrRaised_openFormat {format : ImageFormat}
    (h : (openFormat readers path file format).2 = .error error) : IsRejectionOrRaised error := by
  cases format with
  | elf =>
    simp only [openFormat] at h
    split at h
    · cases h
      exact .inl rfl
    · cases file with
      | error fault =>
        cases h
        exact .inr ⟨_, rfl⟩
      | ok data =>
        simp only [openElf] at h
        split at h <;> cases h
        exact isRejectionOrRaised_errorFor (fun _ => rfl) _
  | pe =>
    simp only [openFormat, openPe] at h
    split at h <;> cases h
    exact isRejectionOrRaised_errorFor (fun _ => rfl) _
  | machO =>
    simp only [openFormat] at h
    split at h
    · cases h
      exact .inl rfl
    · simp only [openMachO] at h
      split at h
      · cases h
        exact .inr ⟨_, rfl⟩
      · cases h
        exact .inl rfl
      · split at h <;> cases h
        exact .inl rfl

end OpenFile

/-! ## Libraries that raise as expected -/

/-- Libraries raise nothing but what is expected: their own errors for data, and what makes a section of
an ELF file unreadable. -/
structure Readers.RaiseAsExpected (readers : Readers) : Prop where
  elf : ∀ library, readers.elf = some library → ∀ data,
    (∀ raised, library.parse data = .error raised → raised.family = .library) ∧
      ∀ image, library.parse data = .ok image → ∀ name,
        (∀ raised, image.lookUp name = .error raised → raised.family ≠ .other) ∧
          ∀ found, image.lookUp name = .ok (some found) →
            ∀ raised, found.contents = .error raised → raised.family ≠ .other
  pe : ∀ data, (∀ raised, readers.pe.parse data = .error raised → raised.family = .library) ∧
    ∀ image, readers.pe.parse data = .ok image →
      ∀ found ∈ image.sections, ∀ raised, found.contents ≠ .error raised
  machO : ∀ library, readers.machO = some library → ∀ data,
    (∀ raised, library.parse data ≠ .error raised) ∧
      ∀ binary, library.parse data = .ok (some binary) → ∀ label, binary.raises label = none

/-- No expected exception fails a section. -/
theorem Elf.faultFor_ne_failure {name : String} {raised other : Raised}
    (h : raised.family ≠ .other) : faultFor name raised ≠ .failure other := by
  unfold faultFor
  split
  · simp
  · simp
  · rename_i hfamily
    exact absurd hfamily h

/-- No section of a blob fails. -/
theorem Blob.sectionAt_ne_failure (base : Int) (data : Bytes) (label : String) (raised : Raised) :
    (source base data).sectionAt label ≠ .error (.failure raised) := by
  simp only [source]
  split
  · simp
  · split <;> simp

/-- The section of a blob does not fail. -/
theorem Blob.failure?_source (base : Int) (data : Bytes) : (source base data).failure? = none :=
  Source.failure?_eq_none_iff.2 fun label _ raised => sectionAt_ne_failure base data label raised

/-- The choice among sections does not fail. -/
theorem MachO.sectionFor_ne_failure (path : String) (sections : List Section) (label : String)
    (raised : Raised) : sectionFor path sections label ≠ .error (.failure raised) := by
  unfold sectionFor
  split
  · simp
  · split
    · simp
    · split <;> simp

/-- Opening comes to a source none of whose sections fails, or to an error that rejects the file. -/
def OpenFile.IsAsExpected (result : Except OpenError Source) : Prop :=
  (∀ source, result = .ok source →
    ∀ label raised, source.sectionAt label ≠ .error (.failure raised)) ∧
  ∀ raised, result ≠ .error (.raised raised)

namespace Readers.RaiseAsExpected

open OpenFile

variable {readers : Readers} (h : readers.RaiseAsExpected)

include h

/-- An ELF file comes to what is expected. -/
theorem openElf {library : Elf.Library} (hlibrary : readers.elf = some library) (path : String)
    (data : Bytes) : IsAsExpected (OpenFile.openElf library path (.ok data)) := by
  obtain ⟨hparse, himage⟩ := h.elf library hlibrary data
  simp only [OpenFile.openElf]
  split
  · rename_i image hopened
    refine ⟨?_, nofun⟩
    rintro _ ⟨⟩ label raised
    simp only [Elf.Image.source]
    split
    · simp
    · rename_i name _
      obtain ⟨hlookUp, hcontents⟩ := himage image hopened name
      simp only [Elf.Image.sectionNamed]
      split
      · rename_i raised' hraised
        simp only [ne_eq, Except.error.injEq]
        exact Elf.faultFor_ne_failure (hlookUp _ hraised)
      · simp
      · rename_i found hfound
        split
        · simp
        · split
          · rename_i raised' hraised
            simp only [ne_eq, Except.error.injEq]
            exact Elf.faultFor_ne_failure (hcontents _ hfound _ hraised)
          · simp
          · simp
  · rename_i raised hraised
    refine ⟨nofun, fun other => ?_⟩
    rw [errorFor, hparse _ hraised]
    simp

/-- So does a PE file. -/
theorem openPe (path : String) (data : Bytes) :
    IsAsExpected (OpenFile.openPe readers.pe path (.ok data)) := by
  obtain ⟨hparse, himage⟩ := h.pe data
  simp only [OpenFile.openPe, Pe.Library.openFile]
  split
  · rename_i image hopened
    refine ⟨?_, nofun⟩
    rintro _ ⟨⟩ label raised
    simp only [Pe.Image.source]
    split
    · simp
    · simp only [Pe.Image.sectionNamed]
      split
      · simp
      · rename_i found hfound
        split
        · rename_i raised' hraised
          exact absurd hraised (himage image hopened found (List.mem_of_find?_eq_some hfound) _)
        · simp
        · simp
  · rename_i raised hraised
    refine ⟨nofun, fun other => ?_⟩
    rw [errorFor, hparse _ hraised]
    simp

/-- So does a Mach-O file. -/
theorem openMachO {library : MachO.Library} (hlibrary : readers.machO = some library)
    (path : String) (data : Bytes) :
    IsAsExpected (OpenFile.openMachO library path (.ok data)).2 := by
  obtain ⟨hparse, hbinary⟩ := h.machO library hlibrary data
  simp only [OpenFile.openMachO, MachO.Library.openFile]
  split
  · rename_i raised hraised
    exact absurd hraised (hparse raised)
  · exact ⟨nofun, fun _ => by simp⟩
  · rename_i binary hopened
    split
    · exact ⟨nofun, fun _ => by simp⟩
    · refine ⟨?_, nofun⟩
      rintro _ ⟨⟩ label raised
      simp only [MachO.Binary.source]
      split
      · rename_i hraises
        cases (hbinary binary hopened label).symm.trans hraises
      · exact MachO.sectionFor_ne_failure _ _ _ _

/-- So does a file of any format. -/
theorem openFormat (path : String) (data : Bytes) (format : ImageFormat) :
    IsAsExpected (OpenFile.openFormat readers path (.ok data) format).2 := by
  cases format with
  | elf =>
    simp only [OpenFile.openFormat]
    split
    · exact ⟨nofun, fun _ => by simp⟩
    · exact h.openElf ‹_› path data
  | pe => exact h.openPe path data
  | machO =>
    simp only [OpenFile.openFormat]
    split
    · exact ⟨nofun, fun _ => by simp⟩
    · exact h.openMachO ‹_› path data

/-- From libraries that raise as expected and a file that may be opened comes no exception. -/
theorem openSource {tree : FileTree} {path : String} {data : Bytes}
    (hread : tree.read path = .ok data) (mode : String) (rawBase : Int) :
    IsAsExpected (OpenFile.openSource tree readers path mode rawBase).2 := by
  simp only [OpenFile.openSource]
  split
  · exact ⟨nofun, fun _ => by simp⟩
  · rename_i known hknown
    rw [FileTree.fileAt?_of_read hread]
    cases known with
    | raw =>
      simp only [OpenFile.openFile, openBlob]
      split
      · exact ⟨nofun, fun _ => by simp⟩
      · refine ⟨?_, nofun⟩
        rintro _ ⟨⟩ label raised
        exact Blob.sectionAt_ne_failure _ _ label raised
    | known format => exact h.openFormat path data format
    | auto =>
      simp only [OpenFile.openFile]
      split
      · exact ⟨nofun, fun _ => by simp⟩
      · exact h.openFormat path data _

end Readers.RaiseAsExpected

end BinaryStrings

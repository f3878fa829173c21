import BinaryStrings.PlainReader
import BinaryStrings.Proofs.Image.Reports
import BinaryStrings.Proofs.Outcome

/-!
# Addresses in files

A section that a library gives a natural number as its address has entries at such numbers only.  What
an entry says is spelled by the bytes of its section from its address on.  Of two entries of one section
whose bytes overlap, one is an ASCII run within the other, a UTF-8 run.

Main results:

- Theorem `Readers.AreAddressed.openSource`: from libraries that give natural addresses come files
  whose sections have them.
- Theorem `Readers.areAddressed_plain`: the readers for plain files are such libraries.
- Theorem `Source.hasByteOf_of_covers`: which byte of a section an address of an entry is.
- Theorem `Source.hasWithin_of_covers`: an entry that reaches over the start of another one of its
  section has it as an ASCII run within itself.
-/

namespace BinaryStrings

/-! ## Load addresses -/

/-- Every section that is there has a natural number as its address. -/
def Source.IsAddressed (source : Source) : Prop :=
  ∀ label region, source.sectionAt label = .ok region → 0 ≤ region.base

/-- The sections of executables that libraries read have natural addresses. -/
structure Readers.AreAddressed (readers : Readers) : Prop where
  elf : ∀ library, readers.elf = some library → ∀ data image, library.parse data = .ok image →
    ∀ name found, image.lookUp name = .ok (some found) → 0 ≤ found.address
  pe : ∀ data image, readers.pe.parse data = .ok image →
    ∀ found ∈ image.sections, 0 ≤ image.base + found.address
  machO : ∀ library, readers.machO = some library → ∀ data binary,
    library.parse data = .ok (some binary) → ∀ found ∈ binary.image.sections, 0 ≤ found.address

/-- A blob at a natural load address. -/
theorem Blob.isAddressed_source {base : Int} (hbase : 0 ≤ base) (data : Bytes) :
    (source base data).IsAddressed := by
  intro label region h
  simp only [source] at h
  split at h
  · cases h
  · split at h <;> cases h
    exact hbase

namespace MachO

variable {sections : List Section} {found : Section}

/-- The section of a candidate is one of the sections. -/
theorem mem_of_firstFit? {choices : List Candidate} (h : firstFit? sections choices = some found) :
    found ∈ sections := by
  induction choices with
  | nil => cases h
  | cons candidate rest ih =>
    simp only [firstFit?] at h
    split at h
    · rename_i hfind
      cases h
      exact List.mem_of_find?_eq_some hfind
    · exact ih h

/-- What is answered for a label is a section of the file. -/
theorem exists_of_sectionFor {path label : String} {region : Region}
    (h : sectionFor path sections label = .ok region) :
    ∃ found ∈ sections, region = ⟨found.address, found.data⟩ := by
  unfold sectionFor at h
  split at h
  · cases h
  · split at h
    · cases h
    · rename_i hfit
      split at h <;> cases h
      exact ⟨_, mem_of_firstFit? hfit, rfl⟩

end MachO

namespace Readers.AreAddressed

variable {readers : Readers} {path : String} {file : Except FileError Bytes} {source : Source}
  (h : readers.AreAddressed)

include h

/-- An ELF file as the library gives it. -/
theorem openElf {library : Elf.Library} (hlibrary : readers.elf = some library)
    (hopen : OpenFile.openElf library path file = .ok source) : source.IsAddressed := by
  cases file with
  | error error => cases hopen
  | ok data =>
    simp only [OpenFile.openElf] at hopen
    split at hopen
    · rename_i image himage
      cases hopen
      intro label region hregion
      simp only [Elf.Image.source] at hregion
      split at hregion
      · cases hregion
      · simp only [Elf.Image.sectionNamed] at hregion
        split at hregion
        · cases hregion
        · cases hregion
        · rename_i hfound
          split at hregion
          · cases hregion
          · split at hregion <;> cases hregion
            exact h.elf library hlibrary data image himage _ _ hfound
    · cases hopen

/-- A PE file as the library gives it. -/
theorem openPe (hopen : OpenFile.openPe readers.pe path file = .ok source) :
    source.IsAddressed := by
  cases file with
  | error error => cases hopen
  | ok data =>
    simp only [OpenFile.openPe, Pe.Library.openFile] at hopen
    split at hopen
    · rename_i image himage
      cases hopen
      intro label region hregion
      simp only [Pe.Image.source] at hregion
      split at hregion
      · cases hregion
      · simp only [Pe.Image.sectionNamed] at hregion
        split at hregion
        · cases hregion
        · rename_i hfind
          split at hregion <;> cases hregion
          exact h.pe data image himage _ (List.mem_of_find?_eq_some hfind)
    · cases hopen

/-- A Mach-O file as the library gives it. -/
theorem openMachO {library : MachO.Library} (hlibrary : readers.machO = some library)
    (hopen : (OpenFile.openMachO library path file).2 = .ok source) : source.IsAddressed := by
  cases file with
  | error error =>
    simp only [OpenFile.openMachO, MachO.Library.openFile] at hopen
    cases hunopened : library.unopened path error <;> simp [hunopened] at hopen
  | ok data =>
    simp only [OpenFile.openMachO, MachO.Library.openFile] at hopen
    split at hopen
    · cases hopen
    · cases hopen
    · rename_i binary hbinary
      split at hopen <;> cases hopen
      intro label region hregion
      simp only [MachO.Binary.source] at hregion
      split at hregion
      · cases hregion
      · obtain ⟨found, hfound, rfl⟩ := MachO.exists_of_sectionFor hregion
        exact h.machO library hlibrary data binary hbinary found hfound

/-- An executable of any format. -/
theorem openFormat {format : ImageFormat}
    (hopen : (OpenFile.openFormat readers path file format).2 = .ok source) :
    source.IsAddressed := by
  cases format with
  | elf =>
    simp only [OpenFile.openFormat] at hopen
    split at hopen
    · cases hopen
    · exact h.openElf ‹_› hopen
  | pe => exact h.openPe hopen
  | machO =>
    simp only [OpenFile.openFormat] at hopen
    split at hopen
    · cases hopen
    · exact h.openMachO ‹_› hopen

/-- A file that is opened in any mode. -/
theorem openFile {rawBase : Int} {mode : OpenMode}
    (hopen : (OpenFile.openFile readers path file rawBase mode).2 = .ok source) :
    source.IsAddressed := by
  cases mode with
  | raw =>
    cases file with
    | error error => cases hopen
    | ok data =>
      simp only [OpenFile.openFile, OpenFile.openBlob] at hopen
      split at hopen <;> cases hopen
      exact Blob.isAddressed_source (by omega) _
  | known format => exact h.openFormat hopen
  | auto =>
    cases file with
    | error error => cases hopen
    | ok data =>
      simp only [OpenFile.openFile] at hopen
      split at hopen
      · cases hopen
      · exact h.openFormat hopen

/-- The sections of a file have natural addresses. -/
theorem openSource {tree : FileTree} {mode : String} {rawBase : Int}
    (hopen : (OpenFile.openSource tree readers path mode rawBase).2 = .ok source) :
    source.IsAddressed := by
  unfold OpenFile.openSource at hopen
  split at hopen
  · cases hopen
  · split at hopen
    · exact h.openFile hopen
    · cases hopen

end Readers.AreAddressed

/-! ### Plain readers -/

namespace PlainReader

/-- A section of a plain ELF file has a natural address. -/
theorem Elf.address_nonneg {image : Elf.Image} {name : String} {found : BinaryStrings.Elf.Section}
    (h : image.lookUp name = .ok (some found)) : 0 ≤ found.address := by
  unfold Elf.Image.lookUp at h
  obtain ⟨headers, -, hfound⟩ := bind_eq_ok_iff.1 h
  obtain ⟨header, -, rfl⟩ := Option.map_eq_some_iff.1 (Except.ok.inj hfound)
  exact Int.natCast_nonneg _

namespace MachO

variable {wide : Bool} {file : Bytes} {found : BinaryStrings.MachO.Section}

/-- So have the sections of a segment of a Mach-O file, -/
theorem address_nonneg_of_mem_readSections {count : Nat} {entries : Bytes}
    (h : found ∈ readSections wide file count entries) : 0 ≤ found.address := by
  induction count generalizing entries with
  | zero => cases h
  | succ count ih =>
    simp only [readSections] at h
    split at h
    · cases h
    · rcases List.mem_cons.1 h with rfl | hrest
      · exact Int.natCast_nonneg _
      · exact ih hrest

/-- those of all its load commands, -/
theorem address_nonneg_of_mem_readCommands {count : Nat} {commands : Bytes}
    (h : found ∈ readCommands wide file count commands) : 0 ≤ found.address := by
  induction count generalizing commands with
  | zero => cases h
  | succ count ih =>
    simp only [readCommands] at h
    have hown : ∀ entries, found ∈ (if number commands 0 4 = segmentCommand wide then
        readSections wide file (number commands (segmentSize wide - 8) 4) entries else []) →
          0 ≤ found.address := by
      intro entries hmem
      split at hmem
      · exact address_nonneg_of_mem_readSections hmem
      · cases hmem
    split at h
    · exact hown _ h
    · rcases List.mem_append.1 h with hfirst | hrest
      · exact hown _ hfirst
      · exact ih hrest

/-- and so those of the file that is read. -/
theorem address_nonneg_of_imageOf? {image : BinaryStrings.MachO.Image} (h : imageOf? file = some image)
    (hfound : found ∈ image.sections) : 0 ≤ found.address := by
  unfold imageOf? at h
  dsimp only at h
  split at h
  · cases h
  · obtain ⟨sections, hsections, rfl⟩ := Option.map_eq_some_iff.1 h
    unfold sectionsOf? at hsections
    split at hsections
    · cases hsections
    · split at hsections <;> cases hsections
      exact address_nonneg_of_mem_readCommands hfound

end MachO

end PlainReader

/-- The readers for plain files give natural addresses. -/
theorem Readers.areAddressed_plain (elf machO : Bool) : (plain elf machO).AreAddressed where
  elf := by
    intro library hlibrary data image himage name found hfound
    obtain ⟨-, rfl⟩ : elf = true ∧ PlainReader.Elf.library = library := by simpa [plain] using hlibrary
    simp only [PlainReader.Elf.library] at himage
    split at himage <;> cases himage
    exact PlainReader.Elf.address_nonneg (mapError_eq_ok_iff.1 hfound)
  pe := by
    intro data image himage found hfound
    simp only [plain, PlainReader.Pe.library] at himage
    split at himage <;> cases himage
    obtain ⟨entry, -, rfl⟩ := List.mem_map.1 hfound
    exact Int.add_nonneg (Int.natCast_nonneg _) (Int.natCast_nonneg _)
  machO := by
    intro library hlibrary data binary hbinary found hfound
    obtain ⟨-, rfl⟩ : machO = true ∧ PlainReader.MachO.library = library := by
      simpa [plain] using hlibrary
    obtain ⟨image, himage, rfl⟩ := Option.map_eq_some_iff.1 (Except.ok.inj hbinary)
    exact PlainReader.MachO.address_nonneg_of_imageOf? himage hfound

/-! ## Bytes of entries -/

/-- An entry reaches over an address: it starts there or before, and ends behind it. -/
def Entry.Covers (entry : Entry) (address : Int) : Prop :=
  entry.address ≤ address ∧ address < entry.address + (Utf8.encode entry.value.toList).length

instance (entry : Entry) (address : Int) : Decidable (entry.Covers address) :=
  inferInstanceAs (Decidable (_ ∧ _))

/-- What is found in the sections of a source, in the order in which it is found. -/
def Source.found (source : Source) (minLength : Int) : List Entry :=
  Label.declared.flatMap (Extraction.findings source (Extraction.effectiveLength minLength))

variable {source : Source} {minLength : Int} {entry other : Entry} {address : Int}

/-- An entry is a likely run of its section. -/
theorem Source.exists_run (h : entry ∈ (source.report minLength).entries) :
    ∃ region, source.sectionAt entry.label = .ok region ∧
      ∃ run ∈ Likely.runsOf region.data (Extraction.effectiveLength minLength),
        run.text = entry.value ∧ entry.address = region.base + run.offset := by
  have hfound := (Report.firsts_sublist _).subset (Report.mem_ofFindings.1 h)
  obtain ⟨_, hentry⟩ := Report.mem_findings_of_mem_flatMap
    (Extraction.label_of_mem_findings source _) hfound
  obtain ⟨region, hsection, run, hrun, heq⟩ := Extraction.mem_findings_iff.1 hentry
  exact ⟨region, hsection, run, hrun, congrArg Entry.value heq.symm, congrArg Entry.address heq⟩

/-- Entries of a file have natural addresses. -/
theorem Source.IsAddressed.address_nonneg (h : source.IsAddressed)
    (hentry : entry ∈ (source.report minLength).entries) : 0 ≤ entry.address := by
  obtain ⟨region, hsection, run, _, _, haddress⟩ := Source.exists_run hentry
  have hbase := h _ _ hsection
  omega

/-- A run is spelled by its bytes, and there is at least one. -/
theorem Likely.isSpelled {data : Bytes} {run : Run} (h : run ∈ runsOf data minLength) :
    run.offset < run.stop ∧
      data.slice run.offset (Utf8.encode run.text.toList).length = Utf8.encode run.text.toList := by
  have hlength : run.stop - run.offset = (Utf8.encode run.text.toList).length := by
    simp [Run.stop]
  rw [← hlength]
  rcases List.mem_append.1 (List.mem_of_mem_filter h) with hascii | hutf8
  · have hmaximal := Scan.isMaximalRun_of_mem_ascii hascii
    exact ⟨hmaximal.start_lt_stop, hmaximal.spelled⟩
  · have hmaximal := Scan.isMaximalRun_of_mem_utf8 hutf8
    exact ⟨hmaximal.start_lt_stop, hmaximal.spelled⟩

/-- An entry covers the address at which it starts. -/
theorem Source.covers_address (h : entry ∈ (source.report minLength).entries) :
    entry.Covers entry.address := by
  obtain ⟨region, hsection, run, hrun, hvalue, haddress⟩ := Source.exists_run h
  have hstop := (Likely.isSpelled hrun).1
  rw [Run.stop, hvalue] at hstop
  exact ⟨Int.le_refl _, by omega⟩

/-- The byte of its section at an address is the byte of the text of an entry at the same distance from
the start. -/
def Source.HasByteOf (source : Source) (entry : Entry) (address : Int) : Prop :=
  ∃ region, source.sectionAt entry.label = .ok region ∧ ∃ (index offset : Nat) (byte : UInt8),
    address = region.base + index ∧ address = entry.address + offset ∧
      region.data[index]? = some byte ∧ (Utf8.encode entry.value.toList)[offset]? = some byte

/-- Where an entry covers an address its text is what the section holds. -/
theorem Source.hasByteOf_of_covers (hentry : entry ∈ (source.report minLength).entries)
    (hcovers : entry.Covers address) : source.HasByteOf entry address := by
  obtain ⟨region, hsection, run, hrun, hvalue, haddress⟩ := Source.exists_run hentry
  obtain ⟨hstart, hstop⟩ := hcovers
  have hslice := (Likely.isSpelled hrun).2
  rw [hvalue] at hslice
  obtain ⟨offset, hoffset⟩ := Int.eq_ofNat_of_zero_le (show 0 ≤ address - entry.address by omega)
  have hlt : offset < (Utf8.encode entry.value.toList).length := by omega
  have hbyte : region.data[run.offset + offset]? = (Utf8.encode entry.value.toList)[offset]? := by
    have hat : (region.data.slice run.offset (Utf8.encode entry.value.toList).length)[offset]? =
        region.data[run.offset + offset]? := by
      rw [Bytes.slice, List.getElem?_take_of_lt hlt, List.getElem?_drop]
    rw [← hat, hslice]
  refine ⟨region, hsection, run.offset + offset, offset, (Utf8.encode entry.value.toList)[offset],
    ?_, by omega, ?_, List.getElem?_eq_getElem hlt⟩
  · push_cast
    omega
  · rw [hbyte, List.getElem?_eq_getElem hlt]

/-! ## Entries within entries -/

/-- A run that reaches over the start of another one is a UTF-8 run, and the other one is an ASCII run
within it. -/
theorem Likely.within_of_reaches {data : Bytes} {run other : Run} (h : run ∈ runsOf data minLength)
    (hother : other ∈ runsOf data minLength) (hstart : other.offset < run.offset)
    (hstop : run.offset < other.stop) :
    Scan.IsAsciiRun data minLength run ∧ Scan.IsUtf8Run data minLength other ∧
      run.stop ≤ other.stop := by
  have hne : run ≠ other := by
    rintro rfl
    omega
  have hnot : ¬ run.IsApartFrom other := by
    have hown := (isSpelled h).1
    unfold Run.IsApartFrom
    omega
  rcases List.mem_append.1 (List.mem_of_mem_filter h) with hrun | hrun <;>
    rcases List.mem_append.1 (List.mem_of_mem_filter hother) with hlonger | hlonger
  · exact absurd (Scan.isApartFrom_of_isMaximalRun (Scan.isMaximalRun_of_mem_ascii hrun)
      (Scan.isMaximalRun_of_mem_ascii hlonger) hne) hnot
  · have hwithin := (Scan.apart_or_span_ssubset hrun hlonger).resolve_left hnot
    refine ⟨Scan.mem_ascii_iff.1 hrun, Scan.mem_utf8_iff.1 hlonger, ?_⟩
    exact ((Set.Ico_subset_Ico_iff (isSpelled h).1).1 hwithin.subset).2
  · -- The run would lie within the ASCII run, which starts before it.
    rcases Scan.apart_or_span_ssubset hlonger hrun with hapart | hwithin
    · exact absurd hapart.symm hnot
    · have hle := ((Set.Ico_subset_Ico_iff (isSpelled hother).1).1 hwithin.subset).1
      omega
  · exact absurd (Scan.isApartFrom_of_isMaximalRun (Scan.isMaximalRun_of_mem_utf8 hrun)
      (Scan.isMaximalRun_of_mem_utf8 hlonger) hne) hnot

/-- An entry is an ASCII run of its section, within a UTF-8 run that is another entry. -/
def Source.HasWithin (source : Source) (minLength : Int) (entry other : Entry) : Prop :=
  ∃ (region : Region) (run longer : Run), source.sectionAt entry.label = .ok region ∧
    run.text = entry.value ∧ entry.address = region.base + run.offset ∧
    longer.text = other.value ∧ other.address = region.base + longer.offset ∧
    Scan.IsAsciiRun region.data (Extraction.effectiveLength minLength) run ∧
    Scan.IsUtf8Run region.data (Extraction.effectiveLength minLength) longer ∧
    run.stop ≤ longer.stop

/-- An entry that starts before another one of its section and covers its address has it within itself. -/
theorem Source.hasWithin_of_covers (hentry : entry ∈ (source.report minLength).entries)
    (hother : other ∈ (source.report minLength).entries) (hlabel : other.label = entry.label)
    (hstart : other.address < entry.address) (hcovers : other.Covers entry.address) :
    source.HasWithin minLength entry other := by
  obtain ⟨region, hsection, run, hrun, hvalue, haddress⟩ := Source.exists_run hentry
  obtain ⟨region', hsection', longer, hlonger, hvalue', haddress'⟩ := Source.exists_run hother
  rw [hlabel, hsection] at hsection'
  cases hsection'
  have hstop := hcovers.2
  rw [← hvalue'] at hstop
  have hwithin := Likely.within_of_reaches hrun hlonger (by omega) (by unfold Run.stop; omega)
  exact ⟨region, run, longer, hsection, hvalue, haddress, hvalue', haddress', hwithin⟩

end BinaryStrings

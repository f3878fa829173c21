import BinaryStrings.Extraction.Basic
import BinaryStrings.Image.Open

/-!
# Reports do not depend on paths

A source names the path of its file in the reasons why sections are not available, and nowhere else.
An extraction does not look at these reasons, so the bytes of a file decide its report: under another
path they are opened as well, and give the same entries.

Main results:

- Theorem `Extraction.extract_congr`: sources with the same contents give the same report.
- Theorem `OpenFile.openFile_path`: the same file is opened alike under every path.
-/

namespace BinaryStrings

/-! ## Contents of sections -/

/-- What an extraction sees of a section: its region, nothing where it is not available, or a
failure. -/
def contentsOf : SectionResult → Except Raised (Option Region)
  | .ok region => .ok (some region)
  | .error (.unavailable _) => .ok none
  | .error (.failure raised) => .error raised

/-- Two sources with the same contents under every label. -/
def Source.HasContentsOf (source other : Source) : Prop :=
  ∀ label, contentsOf (source.sectionAt label) = contentsOf (other.sectionAt label)

namespace Extraction

/-- Sections with the same contents have the same findings. -/
theorem scanSection_congr (minLength : Int) (label : String) {found other : SectionResult}
    (h : contentsOf found = contentsOf other) :
    (scanSection minLength label found).2 = (scanSection minLength label other).2 := by
  rcases found with ⟨⟨reason⟩ | ⟨raised⟩⟩ | region <;>
    rcases other with ⟨⟨reason'⟩ | ⟨raised'⟩⟩ | region' <;> cases h <;> rfl

/-- The entries of several sections go by their contents. -/
theorem scanSections_congr {source other : Source} (h : source.HasContentsOf other)
    (minLength : Int) (labels : List String) :
    (scanSections source minLength labels).2 = (scanSections other minLength labels).2 := by
  induction labels with
  | nil => rfl
  | cons label rest ih =>
    have hfirst := scanSection_congr minLength label (h label)
    simp only [scanSections]
    rcases hscan : scanSection minLength label (source.sectionAt label) with ⟨lines, _ | found⟩ <;>
      rcases hscan' : scanSection minLength label (other.sectionAt label) with ⟨lines', _ | found'⟩ <;>
      rw [hscan, hscan'] at hfirst <;> cases hfirst
    · rfl
    · rcases hrest : scanSections source minLength rest with ⟨more, _ | others⟩ <;>
        rcases hrest' : scanSections other minLength rest with ⟨more', _ | others'⟩ <;>
        rw [hrest, hrest'] at ih <;> cases ih <;> rfl

/-- Sources with the same contents give the same report. -/
theorem extract_congr {source other : Source} (h : source.HasContentsOf other)
    (minLength workers : Int) (labels : List String) :
    (extract source minLength workers labels).2 = (extract other minLength workers labels).2 := by
  have hscan := scanSections_congr h (effectiveLength minLength) labels
  unfold extract
  split
  · rfl
  · rcases hfound : scanSections source (effectiveLength minLength) labels with ⟨lines, _ | found⟩ <;>
      rcases hfound' : scanSections other (effectiveLength minLength) labels with
        ⟨lines', _ | found'⟩ <;>
      rw [hfound, hfound'] at hscan <;> cases hscan <;> rfl

end Extraction

/-! ## Contents of files -/

/-- The path of an ELF file is only in what is told of its sections. -/
theorem Elf.Image.source_hasContentsOf (image : Elf.Image) (path other : String) :
    (image.source path).HasContentsOf (image.source other) := by
  intro label
  simp only [Elf.Image.source]
  split
  · rfl
  · simp only [Elf.Image.sectionNamed]
    split
    · rfl
    · rfl
    · split <;> rfl

/-- So is that of a PE file. -/
theorem Pe.Image.source_hasContentsOf (image : Pe.Image) (path other : String) :
    (image.source path).HasContentsOf (image.source other) := by
  intro label
  simp only [Pe.Image.source]
  split
  · rfl
  · simp only [Pe.Image.sectionNamed]
    split <;> rfl

/-- So is that of a Mach-O image. -/
theorem MachO.Image.source_hasContentsOf (image : MachO.Image) (path other : String) :
    (image.source path).HasContentsOf (image.source other) := by
  intro label
  simp only [MachO.Image.source, MachO.sectionFor]
  split
  · rfl
  · split <;> rfl

/-- So is that of a Mach-O file that was read. -/
theorem MachO.Binary.source_hasContentsOf (binary : MachO.Binary) (path other : String) :
    (binary.source path).HasContentsOf (binary.source other) := by
  intro label
  simp only [MachO.Binary.source]
  split
  · rfl
  · exact MachO.Image.source_hasContentsOf binary.image path other label

namespace OpenFile

variable {path : String} {file : Except FileError Bytes} {source : Source}

/-- Of data that a library opens, the path is only named in errors. -/
theorem openElf_path {library : Elf.Library} (other : String)
    (h : openElf library path file = .ok source) :
    ∃ source', openElf library other file = .ok source' ∧ source.HasContentsOf source' := by
  cases file with
  | error error => cases h
  | ok data =>
    simp only [openElf] at h ⊢
    split at h
    · cases h
      exact ⟨_, rfl, Elf.Image.source_hasContentsOf _ _ _⟩
    · cases h

/-- A PE file opens under every path, with the same contents. -/
theorem openPe_path {library : Pe.Library} (other : String)
    (h : openPe library path file = .ok source) :
    ∃ source', openPe library other file = .ok source' ∧ source.HasContentsOf source' := by
  cases file with
  | error error => cases h
  | ok data =>
    simp only [openPe, Pe.Library.openFile] at h ⊢
    split at h
    · cases h
      exact ⟨_, rfl, Pe.Image.source_hasContentsOf _ _ _⟩
    · cases h

/-- So does a Mach-O file. -/
theorem openMachO_path {library : MachO.Library} (other : String)
    (h : (openMachO library path file).2 = .ok source) :
    ∃ source', (openMachO library other file).2 = .ok source' ∧ source.HasContentsOf source' := by
  cases file with
  | error error =>
    simp only [openMachO, MachO.Library.openFile] at h
    cases hunopened : library.unopened path error <;> simp [hunopened] at h
  | ok data =>
    simp only [openMachO, MachO.Library.openFile] at h ⊢
    split at h
    · cases h
    · cases h
    · split at h
      · cases h
      · rename_i hcount
        cases h
        exact ⟨_, by rw [if_neg hcount], MachO.Binary.source_hasContentsOf _ _ _⟩

/-- So does a file of any format. -/
theorem openFormat_path {readers : Readers} {format : ImageFormat} (other : String)
    (h : (openFormat readers path file format).2 = .ok source) :
    ∃ source', (openFormat readers other file format).2 = .ok source' ∧
      source.HasContentsOf source' := by
  cases format with
  | elf =>
    simp only [openFormat] at h ⊢
    split at h
    · cases h
    · exact openElf_path other h
  | pe => exact openPe_path other h
  | machO =>
    simp only [openFormat] at h ⊢
    split at h
    · cases h
    · exact openMachO_path other h

/-- The same file is opened alike under every path. -/
theorem openFile_path {readers : Readers} {rawBase : Int} {mode : OpenMode} (other : String)
    (h : (openFile readers path file rawBase mode).2 = .ok source) :
    ∃ source', (openFile readers other file rawBase mode).2 = .ok source' ∧
      source.HasContentsOf source' := by
  cases mode with
  | raw =>
    cases file with
    | error error => cases h
    | ok data => exact ⟨source, h, fun _ => rfl⟩
  | known format => exact openFormat_path other h
  | auto =>
    cases file with
    | error error => cases h
    | ok data =>
      simp only [openFile] at h ⊢
      split at h
      · cases h
      · exact openFormat_path other h

end OpenFile

end BinaryStrings

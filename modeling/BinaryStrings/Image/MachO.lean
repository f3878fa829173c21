import BinaryStrings.Extraction.Source
import BinaryStrings.FileTree.Basic

/-!
# Mach-O files

A library opens Mach-O files by their paths and lists their sections.  Several files in one are
represented by the first.  A label has several candidates, each a segment (or any) and a section
name: the first candidate with a match decides, and of its matches the first in the file.  No exception
of the library is expected.
-/

namespace BinaryStrings.MachO

/-- A section of a Mach-O file. -/
structure Section where
  segment : String
  name : String
  address : Int
  data : Bytes
  deriving DecidableEq, Repr

/-- A section to look for. -/
structure Candidate where
  /-- The segment it is in; none for any. -/
  segment : Option String
  name : String
  deriving DecidableEq, Repr

/-- Whether a section is one to look for. -/
def Candidate.fits (candidate : Candidate) (found : Section) : Bool :=
  found.name == candidate.name &&
    match candidate.segment with
    | some segment => found.segment == segment
    | none => true

/-- The name of the format. -/
def formatName : String := "Mach-O"

/-- The candidates of a label, first choice first. -/
def candidates (label : String) : List Candidate :=
  if label == Label.code then [⟨none, "__text"⟩]
  else if label == Label.constants then
    [⟨none, "__rodata"⟩, ⟨some "__TEXT", "__cstring"⟩, ⟨some "__TEXT", "__const"⟩]
  else if label == Label.relocated then [⟨some "__DATA_CONST", "__const"⟩]
  else []

/-- The first match of the first candidate that has one. -/
def firstFit? (sections : List Section) : List Candidate → Option Section
  | [] => none
  | candidate :: rest =>
    match sections.find? candidate.fits with
    | some found => some found
    | none => firstFit? sections rest

/-- The section of a label in the file at a path. -/
def sectionFor (path : String) (sections : List Section) (label : String) : SectionResult :=
  match candidates label with
  | [] => .error (.unavailable (.unknownToFormat formatName label))
  | choices =>
    match firstFit? sections choices with
    | none => .error (.unavailable (.noSuchSection label path))
    | some found =>
      if found.data.isEmpty then
        .error (.unavailable (.empty (found.segment ++ "," ++ found.name)))
      else .ok ⟨found.address, found.data⟩

/-! ## Files -/

/-- A file with its sections, and the number of files it is one of. -/
structure Image where
  sections : List Section
  fileCount : Nat
  deriving Repr

/-- A Mach-O file as a source of sections. -/
def Image.source (image : Image) (path : String) : Source where
  format := formatName
  warnings := none
  sectionAt := sectionFor path image.sections

/-- A file as the library gives it, with what it raises while the sections are gone over for a label. -/
structure Binary where
  image : Image
  raises : String → Option Raised

/-- A file as the library gives it as a source of sections.  For an unknown label the sections are not
gone over. -/
def Binary.source (binary : Binary) (path : String) : Source :=
  let source := binary.image.source path
  { source with
    sectionAt := fun label =>
      match candidates label, binary.raises label with
      | _ :: _, some raised => .error (.failure raised)
      | _, _ => source.sectionAt label }

/-- A library for Mach-O files. -/
structure Library where
  /-- What opening data comes to; none if it is no Mach-O file. -/
  parse : Bytes → Except Raised (Option Binary)
  /-- What is raised for a path whose file cannot be opened, if that is not taken for no Mach-O file. -/
  unopened : String → FileError → Option Raised

/-- What opening the file at a path comes to. -/
def Library.openFile (library : Library) (path : String) :
    Except FileError Bytes → Except Raised (Option Binary)
  | .ok data => library.parse data
  | .error error =>
    match library.unopened path error with
    | some raised => .error raised
    | none => .ok none

end BinaryStrings.MachO

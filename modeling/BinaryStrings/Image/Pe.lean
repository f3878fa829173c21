import BinaryStrings.Extraction.Source
import BinaryStrings.FileTree.Basic

/-!
# PE files

A library opens PE files by their paths and reads them.  It lists the sections with their names, which
are filled up with zeros, and their addresses relative to that of the image.  The first section of a name
counts.  No exception of the library is expected while sections are read.
-/

namespace BinaryStrings.Pe

/-- A section as the library gives it. -/
structure Section where
  name : Bytes
  /-- The address relative to that of the image. -/
  address : Int
  /-- What reading its bytes comes to. -/
  contents : Except Raised Bytes

/-- An open file. -/
structure Image where
  base : Int
  sections : List Section

/-- A library for PE files. -/
structure Library where
  /-- What opening data comes to. -/
  parse : Bytes → Except Raised Image
  /-- What is raised for a path whose file cannot be opened. -/
  unopened : String → FileError → Raised

/-- What opening the file at a path comes to. -/
def Library.openFile (library : Library) (path : String) :
    Except FileError Bytes → Except Raised Image
  | .ok data => library.parse data
  | .error error => .error (library.unopened path error)

/-- A name without the zeros at its end. -/
def Section.trimmedName (found : Section) : Bytes :=
  (found.name.reverse.dropWhile (· == 0)).reverse

/-- The name of the format. -/
def formatName : String := "PE"

/-- The name of the section of a label. -/
def sectionName? (label : String) : Option String :=
  if label == Label.code then some ".text"
  else if label == Label.constants then some ".rdata"
  else none

/-- The section of a name. -/
def Image.sectionNamed (image : Image) (path label name : String) : SectionResult :=
  match image.sections.find? (·.trimmedName == Bytes.ofAscii name) with
  | none => .error (.unavailable (.noSuchSection label path))
  | some found =>
    match found.contents with
    | .error raised => .error (.failure raised)
    | .ok [] => .error (.unavailable (.empty name))
    | .ok data => .ok ⟨image.base + found.address, data⟩

/-- A PE file as a source of sections. -/
def Image.source (image : Image) (path : String) : Source where
  format := formatName
  warnings := none
  sectionAt label :=
    match sectionName? label with
    | none => .error (.unavailable (.unknownToFormat formatName label))
    | some name => image.sectionNamed path label name

end BinaryStrings.Pe

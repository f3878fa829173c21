import BinaryStrings.Extraction.Source

/-!
# ELF files

A library reads ELF files.  It looks sections up by their names and tells of each whether it takes room
in the file, where it is loaded, and what its bytes are.  A section whose look-up or bytes fail with an
error of the library, of the system or about a value is unreadable; other exceptions pass.
-/

namespace BinaryStrings.Elf

/-- A section as the library gives it. -/
structure Section where
  address : Int
  /-- The section takes no room in the file. -/
  takesNoRoom : Bool
  /-- What reading its bytes comes to. -/
  contents : Except Raised Bytes

/-- An open file, by what looking up a section of a name comes to.  It comes to the same every time. -/
structure Image where
  lookUp : String → Except Raised (Option Section)

/-- A library for ELF files, by what opening data comes to. -/
structure Library where
  parse : Bytes → Except Raised Image

/-- The name of the format. -/
def formatName : String := "ELF"

/-- The section of a label is the one of this name. -/
def sectionName? (label : String) : Option String :=
  if Label.declared.contains label then some label else none

/-- What an exception means for the section of a name. -/
def faultFor (name : String) (raised : Raised) : SectionFault :=
  match raised.family with
  | .library => .unavailable (.unreadable name raised.message)
  | .systemOrValue => .unavailable (.unreadable name raised.message)
  | .other => .failure raised

/-- The section of a name. -/
def Image.sectionNamed (image : Image) (path label name : String) : SectionResult :=
  match image.lookUp name with
  | .error raised => .error (faultFor name raised)
  | .ok none => .error (.unavailable (.noSuchSection label path))
  | .ok (some found) =>
    if found.takesNoRoom then .error (.unavailable (.noContents name))
    else
      match found.contents with
      | .error raised => .error (faultFor name raised)
      | .ok [] => .error (.unavailable (.empty name))
      | .ok data => .ok ⟨found.address, data⟩

/-- An ELF file as a source of sections. -/
def Image.source (image : Image) (path : String) : Source where
  format := formatName
  warnings := none
  sectionAt label :=
    match sectionName? label with
    | none => .error (.unavailable (.unknownToFormat formatName label))
    | some name => image.sectionNamed path label name

end BinaryStrings.Elf

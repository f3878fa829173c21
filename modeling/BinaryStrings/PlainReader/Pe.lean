import BinaryStrings.Image.Magic
import BinaryStrings.Image.Pe
import BinaryStrings.PlainReader.Fields
import BinaryStrings.Text.Quoted

/-!
# Plain PE files

A PE file has an old header that points to the headers proper, behind which stands the section
table.  The table ends early at an empty entry or at one with several signs of damage.  Sections are
listed by ascending address.
-/

namespace BinaryStrings.PlainReader.Pe

open BinaryStrings.Pe (Library)

/-- Why a PE file cannot be read. -/
inductive Error where
  | emptyFile
  | shortDosHeader
  | zmFile
  | noDosMagic
  | headersOutside
  | noHeaders
  | otherHeaders (kind : String)
  | badSignature
  | noFileHeader
  | noOptionalHeader
  | shortSectionHeader
  deriving DecidableEq, Repr

/-- The wording of an error. -/
def Error.message : Error → String
  | .emptyFile => "The file is empty"
  | .shortDosHeader => "Unable to read the DOS Header, possibly a truncated file."
  | .zmFile => "Probably a ZM Executable (not a PE file)."
  | .noDosMagic => "DOS Header magic not found."
  | .headersOutside => "Invalid e_lfanew value, probably not a PE file"
  | .noHeaders => "NT Headers not found."
  | .otherHeaders kind => s!"Invalid NT Headers signature. Probably a {kind} file"
  | .badSignature => "Invalid NT Headers signature."
  | .noFileHeader => "File Header missing"
  | .noOptionalHeader => "No Optional Header found, invalid PE32 or PE32+ file."
  | .shortSectionHeader => "Data length less than expected header length."

/-- An error as it is raised. -/
def Error.raised (error : Error) : Raised :=
  ⟨.library, "PEFormatError", Text.quoted error.message⟩

/-- An entry of the section table. -/
structure Section where
  name : Bytes
  virtualSize : Nat
  address : Nat
  rawSize : Nat
  pointer : Nat
  deriving DecidableEq, Repr

/-- What the optional header says. -/
structure Layout where
  imageBase : Nat
  sectionAlignment : Nat
  fileAlignment : Nat
  deriving DecidableEq, Repr

/-- A file with its sections by ascending address. -/
structure Image where
  data : Bytes
  layout : Layout
  sections : List Section
  deriving Repr

/-! ## Headers -/

/-- The size of the old header. -/
def dosHeaderSize : Nat := 64

/-- The size of the file header. -/
def fileHeaderSize : Nat := 20

/-- The size of an entry of the section table. -/
def sectionHeaderSize : Nat := 40

/-- The number at an offset. -/
def number (data : Bytes) (offset size : Nat) : Nat :=
  numberAt .little data offset size

/-- Signatures of other headers. -/
def otherSignatures : List (Nat × String) :=
  [(0x454E, "NE"), (0x454C, "LE"), (0x584C, "LX"), (0x5A56, "TE")]

/-- The signature of the headers proper. -/
def signature : Nat := 0x4550

/-- The place of the headers proper. -/
def headersAt (data : Bytes) : Except Error Nat := do
  if data.isEmpty then throw .emptyFile
  if data.length < dosHeaderSize then throw .shortDosHeader
  if data.take 2 == Bytes.ofAscii "ZM" then throw .zmFile
  if data.take 2 != ImageFormat.peMagic then throw .noDosMagic
  let start := number data 60 4
  if data.length < start then throw .headersOutside
  let found := number data start 4
  if (Bytes.slice data start 4).length < 4 || found = 0 then throw .noHeaders
  match otherSignatures.lookup (found % 0x10000) with
  | some kind => throw (.otherHeaders kind)
  | none => if found = signature then return start else throw .badSignature

/-- The magic number of optional headers with wide fields. -/
def wideMagic : Nat := 0x20B

/-- Reads the optional header.  A header that is cut off is filled up with zeros if not too much of
it is missing. -/
def readLayout (header : Bytes) : Except Error Layout :=
  let filled (full least : Nat) : Bool := full ≤ header.length || least ≤ header.length
  if !filled 96 69 then .error .noOptionalHeader
  else if number header 0 2 = wideMagic then
    if filled 112 73 then .ok ⟨number header 24 8, number header 32 4, number header 36 4⟩
    else .error .noOptionalHeader
  else .ok ⟨number header 28 4, number header 32 4, number header 36 4⟩

/-! ## Section table -/

/-- File contents start at multiples of this. -/
def sectorSize : Nat := 0x200

/-- Pages have this size. -/
def pageSize : Nat := 0x1000

/-- Sizes and addresses above this are a sign of damage. -/
def plausibleSize : Nat := 0x10000000

/-- A number rounded down to a multiple of another one. -/
def roundedDown (n unit : Nat) : Nat :=
  n / unit * unit

/-- An address rounded down to a multiple of the section alignment; of the file alignment when that
of sections is less than a page. -/
def Layout.alignedAddress (layout : Layout) (address : Nat) : Nat :=
  let unit :=
    if layout.sectionAlignment < pageSize then layout.fileAlignment else layout.sectionAlignment
  if unit = 0 then address else roundedDown address unit

/-- The number of signs of damage that an entry shows. -/
def Section.signsOfDamage (entry : Section) (layout : Layout) (fileSize : Nat) : Nat :=
  [decide (fileSize < entry.rawSize + entry.pointer),
    decide (fileSize < roundedDown entry.pointer sectorSize),
    decide (plausibleSize < entry.virtualSize),
    decide (plausibleSize < layout.alignedAddress entry.address),
    layout.fileAlignment != 0 && entry.pointer % layout.fileAlignment != 0].count true

/-- An entry with so many signs of damage ends the table. -/
def mostDamage : Nat := 3

/-- The table has at most this many entries. -/
def mostSections : Nat := 0x800

/-- Reads an entry. -/
def Section.ofBytes (header : Bytes) : Section :=
  ⟨header.take 8, number header 8 4, number header 12 4, number header 16 4, number header 20 4⟩

/-- Reads up to `count` entries of the table. -/
def readSections (layout : Layout) (fileSize : Nat) : (count : Nat) → Bytes →
    Except Error (List Section)
  | 0, _ => .ok []
  | count + 1, table =>
    let header := table.take sectionHeaderSize
    if header.isEmpty || (header.length == sectionHeaderSize && header.all (· == 0)) then .ok []
    else if header.length < sectionHeaderSize then .error .shortSectionHeader
    else
      let entry := Section.ofBytes header
      if mostDamage ≤ entry.signsOfDamage layout fileSize then .ok []
      else
        match readSections layout fileSize count (table.drop sectionHeaderSize) with
        | .ok rest => .ok (entry :: rest)
        | .error error => .error error

/-- Reads the headers of a file. -/
def Image.ofBytes (data : Bytes) : Except Error Image := do
  let start ← headersAt data
  let fileHeader := Bytes.slice data (start + 4) fileHeaderSize
  if fileHeader.length < fileHeaderSize then throw .noFileHeader
  let optional := start + 4 + fileHeaderSize
  let layout ← readLayout (data.drop optional)
  let count := min (number fileHeader 2 2) mostSections
  let table := data.drop (optional + number fileHeader 16 2)
  let sections ← readSections layout data.length count table
  return ⟨data, layout, sections.mergeSort fun a b => a.address ≤ b.address⟩

/-! ## Contents -/

/-- Where the contents of a section start in the file. -/
def Section.start (entry : Section) (layout : Layout) : Nat :=
  if layout.sectionAlignment < pageSize && entry.pointer = entry.address then entry.pointer
  else roundedDown entry.pointer sectorSize

/-- The contents of a section. -/
def Image.contents (image : Image) (entry : Section) : Bytes :=
  Bytes.slice image.data (entry.start image.layout) entry.rawSize

/-! ## The library -/

/-- A reader for plain PE files. -/
def library : Library where
  parse data :=
    match Image.ofBytes data with
    | .ok image =>
      .ok ⟨image.layout.imageBase, image.sections.map fun entry =>
        ⟨entry.name, entry.address, .ok (image.contents entry)⟩⟩
    | .error error => .error error.raised
  unopened path error :=
    ⟨.other, "Exception", s!"Unable to access file '{path}': {error.message path}"⟩

end BinaryStrings.PlainReader.Pe

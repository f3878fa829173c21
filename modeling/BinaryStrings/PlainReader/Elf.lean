import BinaryStrings.Image.Elf
import BinaryStrings.Image.Magic
import BinaryStrings.PlainReader.Fields
import BinaryStrings.PlainReader.Inflate
import BinaryStrings.Text.Hex
import BinaryStrings.Text.Quoted

/-!
# Plain ELF files

An ELF file names its sections through a string table.  All section headers are read, in order,
before a section is looked up, so one that cannot be read makes every section unreadable; of several
sections with one name the last counts.  In a plain file compressed sections consist of stored blocks.
-/

namespace BinaryStrings.PlainReader.Elf

open BinaryStrings.Elf (Library Section)

/-- Why an ELF file or a section of it cannot be read. -/
inductive Error where
  | badMagic
  | badClass (found : Bytes)
  | badByteOrder (found : Bytes)
  | short (field : ShortField)
  | headerPastEnd (index offset size : Nat)
  | smallHeaders (size : Nat)
  | noStringTable
  | inflatedSize (actual wanted : Nat)
  | unknownCompression (kind : Nat)
  | badCompression (mistake : String)
  | offsetTooLarge
  | negativeLength
  deriving DecidableEq, Repr

/-- The wording of an error. -/
def Error.message : Error → String
  | .badMagic => "Magic number does not match"
  | .badClass found => "Invalid EI_CLASS " ++ Text.quotedBytes found
  | .badByteOrder found => "Invalid EI_DATA " ++ Text.quotedBytes found
  | .short field => field.message
  | .headerPastEnd index offset size =>
    s!"Reading section {index} at offset {offset} past EOF {size}"
  | .smallHeaders size => s!"Too small e_shentsize: {size}"
  | .noStringTable => "String Table not found"
  | .inflatedSize actual wanted =>
    s!"Decompressed data is {actual} bytes long, should be {wanted} bytes long"
  | .unknownCompression kind => "Unknown compression type: " ++ Text.hexNumber kind
  | .badCompression mistake => s!"Error -3 while decompressing data: {mistake}"
  | .offsetTooLarge => "cannot fit 'int' into an offset-sized integer"
  | .negativeLength => "read length must be non-negative or -1"

/-- An error as it is raised.  Compressed data that is not accepted is none of the library's errors. -/
def Error.raised (error : Error) : Raised :=
  match error with
  | .badCompression _ => ⟨.other, "error", error.message⟩
  | .offsetTooLarge => ⟨.systemOrValue, "ValueError", error.message⟩
  | .negativeLength => ⟨.systemOrValue, "ValueError", error.message⟩
  | _ => ⟨.library, "ELFError", error.message⟩

/-- How the numbers of a file are written. -/
structure Layout where
  /-- Addresses and offsets have eight bytes, not four. -/
  wide : Bool
  order : ByteOrder
  deriving DecidableEq, Repr

/-- A file and where its section headers are. -/
structure Image where
  data : Bytes
  size : Nat
  layout : Layout
  /-- Where the section headers start; zero when there are none. -/
  headers : Nat
  headerSize : Nat
  /-- The number of sections; zero when the first header has it. -/
  count : Nat
  /-- The section that holds the names, unless the first header has it. -/
  nameSection : Nat
  deriving Repr

/-- A section header. -/
structure Header where
  name : Nat
  kind : Nat
  flags : Nat
  address : Nat
  offset : Nat
  size : Nat
  link : Nat
  deriving DecidableEq, Repr

/-! ## File header -/

/-- The sizes of the fields of a file header behind its first six bytes. -/
def fileFields (wide : Bool) : List Nat :=
  let word := if wide then 8 else 4
  [1, 1, 1, 7, 2, 2, 4, word, word, word, 4, 2, 2, 2, 2, 2, 2]

/-- Reads the word size from the fifth byte. -/
def readWide (data : Bytes) : Except Error Bool :=
  match Bytes.slice data 4 1 with
  | [1] => .ok false
  | [2] => .ok true
  | found => .error (.badClass found)

/-- Reads the byte order from the sixth byte. -/
def readOrder (data : Bytes) : Except Error ByteOrder :=
  match Bytes.slice data 5 1 with
  | [1] => .ok .little
  | [2] => .ok .big
  | found => .error (.badByteOrder found)

/-- Reads the header of a file. -/
def Image.ofBytes (data : Bytes) : Except Error Image := do
  if data.take 4 != ImageFormat.elfMagic then throw .badMagic
  let wide ← readWide data
  let order ← readOrder data
  match fields order (fileFields wide) (data.drop 6) with
  | .error field => throw (.short field)
  | .ok fields =>
    let field (n : Nat) : Nat := fields.getD n 0
    return ⟨data, data.length, ⟨wide, order⟩, field 9, field 14, field 15, field 16⟩

/-! ## Section headers -/

/-- The sizes of the fields of a section header. -/
def headerFields (wide : Bool) : List Nat :=
  if wide then [4, 4, 8, 8, 8, 8, 4, 4, 8, 8] else [4, 4, 4, 4, 4, 4, 4, 4, 4, 4]

/-- Larger offsets cannot be reached. -/
def offsetLimit : Nat := Nat.pow 2 63

/-- The kind of sections without contents in the file. -/
def noContentsKind : Nat := 8

/-- The flag of compressed sections. -/
def compressedFlag : Nat := 0x800

/-- The section index that says the first header has it. -/
def indexElsewhere : Nat := 0xFFFF

/-- The place of a section header. -/
def Image.headerOffset (image : Image) (index : Nat) : Except Error Nat :=
  if 0 < image.headers && image.headerSize < recordSize (headerFields image.layout.wide) then
    .error (.smallHeaders image.headerSize)
  else .ok (image.headers + index * image.headerSize)

/-- The section header at an offset. -/
def Image.headerAt (image : Image) (offset : Nat) : Except Error Header :=
  match fields image.layout.order (headerFields image.layout.wide) (image.data.drop offset) with
  | .ok (name :: kind :: flags :: address :: offset :: size :: link :: _) =>
    .ok ⟨name, kind, flags, address, offset, size, link⟩
  | .ok _ => .error (.short ⟨0, 0⟩)
  | .error field => .error (.short field)

/-- The header of a section. -/
def Image.header (image : Image) (index : Nat) : Except Error Header := do
  let offset ← image.headerOffset index
  if image.size < offset then throw (.headerPastEnd index offset image.size)
  else image.headerAt offset

/-- The number of sections. -/
def Image.sectionCount (image : Image) : Except Error Nat := do
  if image.headers = 0 then return 0
  else if image.count = 0 then return (← image.header 0).size
  else return image.count

/-- The header of the section that holds the names. -/
def Image.nameTable (image : Image) : Except Error Header := do
  let index ←
    if image.nameSection = indexElsewhere then do pure (← image.header 0).link
    else pure image.nameSection
  match image.header index with
  | .ok header => return header
  | .error (.headerPastEnd ..) => throw .noStringTable
  | .error (.short _) => throw .noStringTable
  | .error error => throw error

/-- The name of a section: the bytes up to a zero, none if there is no zero. -/
def Image.sectionName (image : Image) (header : Header) : Except Error Bytes := do
  let table ← image.nameTable
  let start := table.offset + header.name
  if offsetLimit ≤ start then throw .offsetTooLarge
  else
    let rest := image.data.drop start
    let name := rest.takeWhile (· != 0)
    return if name.length < rest.length then name else []

/-- Whether a section is compressed. -/
def Header.isCompressed (header : Header) : Bool :=
  header.flags / compressedFlag % 2 == 1

/-- How a section is compressed. -/
structure Compression where
  kind : Nat
  size : Nat
  headerSize : Nat
  deriving DecidableEq, Repr

/-- The sizes of the fields in front of compressed data. -/
def compressionFields (wide : Bool) : List Nat :=
  if wide then [4, 4, 8, 8] else [4, 4, 4]

/-- Reads how a section is compressed. -/
def Image.compression (image : Image) (header : Header) : Except Error Compression :=
  let wide := image.layout.wide
  if offsetLimit ≤ header.offset then .error .offsetTooLarge
  else
    match fields image.layout.order (compressionFields wide) (image.data.drop header.offset) with
    | .error field => .error (.short field)
    | .ok fields =>
      .ok ⟨fields.getD 0 0, fields.getD (if wide then 2 else 1) 0,
        recordSize (compressionFields wide)⟩

/-- Reads the header of a section, its name, and how it is compressed. -/
def Image.namedHeader (image : Image) (index : Nat) : Except Error (Bytes × Header) := do
  let header ← image.header index
  let name ← image.sectionName header
  if header.isCompressed then
    let _ ← image.compression header
  return (name, header)

/-- The names and headers of `count` sections from `index` on. -/
def Image.headersFrom (image : Image) : (count index : Nat) →
    Except Error (List (Bytes × Header))
  | 0, _ => .ok []
  | count + 1, index => do
    let first ← image.namedHeader index
    let rest ← image.headersFrom count (index + 1)
    return first :: rest

/-- The names and headers of all sections. -/
def Image.namedHeaders (image : Image) : Except Error (List (Bytes × Header)) := do
  image.headersFrom (← image.sectionCount) 0

/-! ## Contents -/

/-- The contents of a section that is not compressed. -/
def Image.plainContents (image : Image) (header : Header) : Except Error Bytes :=
  if offsetLimit ≤ header.offset then .error .offsetTooLarge
  else .ok (Bytes.slice image.data header.offset header.size)

/-- The kind of compression that can be undone. -/
def inflatable : Nat := 1

/-- The compressed bytes of a section.  One byte less than the header in front of them stands for
all bytes up to the end of the file. -/
def Image.compressedBytes (image : Image) (header : Header) (headerSize : Nat) :
    Except Error Bytes :=
  let rest := image.data.drop (header.offset + headerSize)
  if header.size + 1 < headerSize then .error .negativeLength
  else if header.size + 1 = headerSize then .ok rest
  else .ok (rest.take (header.size - headerSize))

/-- The contents of a section. -/
def Image.contents (image : Image) (header : Header) : Except Error Bytes := do
  if !header.isCompressed then image.plainContents header
  else
    let compression ← image.compression header
    if compression.kind != inflatable then throw (.unknownCompression compression.kind)
    else
      let packed ← image.compressedBytes header compression.headerSize
      match Inflate.mistake? packed with
      | some mistake => throw (.badCompression mistake)
      | none =>
        let data := Inflate.stored compression.size packed
        if data.length != compression.size then throw (.inflatedSize data.length compression.size)
        else return data

/-! ## The library -/

/-- A section by its header. -/
def Image.sectionOf (image : Image) (header : Header) : Section where
  address := header.address
  takesNoRoom := header.kind = noContentsKind
  contents := (image.contents header).mapError Error.raised

/-- Looks up the last section of a name. -/
def Image.lookUp (image : Image) (name : String) : Except Error (Option Section) := do
  let headers ← image.namedHeaders
  return (headers.reverse.lookup (Bytes.ofAscii name)).map image.sectionOf

/-- A reader for plain ELF files. -/
def library : Library where
  parse data :=
    match Image.ofBytes data with
    | .ok image => .ok ⟨fun name => (image.lookUp name).mapError Error.raised⟩
    | .error error => .error error.raised

end BinaryStrings.PlainReader.Elf

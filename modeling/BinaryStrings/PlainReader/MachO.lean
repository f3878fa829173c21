import BinaryStrings.Image.MachO
import BinaryStrings.PlainReader.Fields

/-!
# Plain Mach-O files

A plain Mach-O file has its numbers with the least significant byte first and lists its sections in the
load commands of its segments.  Several files in one are represented by the first.
-/

namespace BinaryStrings.PlainReader.MachO

open BinaryStrings.MachO

/-! ## Load commands -/

/-- Whether a file has wide addresses, by its first bytes; none if it is no Mach-O file. -/
def isWide? (data : Bytes) : Option Bool :=
  match data.take 4 with
  | [0xCF, 0xFA, 0xED, 0xFE] => some true
  | [0xCE, 0xFA, 0xED, 0xFE] => some false
  | _ => none

/-- The number at an offset. -/
def number (data : Bytes) (offset size : Nat) : Nat :=
  numberAt .little data offset size

/-- A name in a field of sixteen bytes. -/
def nameAt (data : Bytes) (offset : Nat) : String :=
  Bytes.toLatin1 ((Bytes.slice data offset 16).takeWhile (· != 0))

/-- The size of the header in front of the load commands. -/
def headerSize (wide : Bool) : Nat := if wide then 32 else 28

/-- The size of a segment command in front of its sections. -/
def segmentSize (wide : Bool) : Nat := if wide then 72 else 56

/-- The size of a section in a segment command. -/
def sectionSize (wide : Bool) : Nat := if wide then 80 else 68

/-- The number of a segment command. -/
def segmentCommand (wide : Bool) : Nat := if wide then 0x19 else 1

/-- Reads a section of a segment command. -/
def readSection (wide : Bool) (file entry : Bytes) : Section :=
  let word := if wide then 8 else 4
  let size := number entry (32 + word) word
  let offset := number entry (32 + 2 * word) 4
  ⟨nameAt entry 16, nameAt entry 0, number entry 32 word, Bytes.slice file offset size⟩

/-- Reads `count` sections of a segment command. -/
def readSections (wide : Bool) (file : Bytes) : (count : Nat) → Bytes → List Section
  | 0, _ => []
  | count + 1, entries =>
    let size := sectionSize wide
    if entries.length < size then []
    else readSection wide file (entries.take size) :: readSections wide file count (entries.drop size)

/-- Reads the sections of `count` load commands. -/
def readCommands (wide : Bool) (file : Bytes) : (count : Nat) → Bytes → List Section
  | 0, _ => []
  | count + 1, commands =>
    let kind := number commands 0 4
    let size := number commands 4 4
    let own :=
      if kind = segmentCommand wide then
        let sections := number commands (segmentSize wide - 8) 4
        readSections wide file sections ((commands.take size).drop (segmentSize wide))
      else []
    if size = 0 || commands.length < size then own
    else own ++ readCommands wide file count (commands.drop size)

/-- The sections of a file; none if it is no Mach-O file. -/
def sectionsOf? (file : Bytes) : Option (List Section) :=
  match isWide? file with
  | none => none
  | some wide =>
    if file.length < headerSize wide then none
    else some (readCommands wide file (number file 16 4) (file.drop (headerSize wide)))

/-! ## Several files in one -/

/-- The first bytes of several files in one. -/
def fatMagic : Bytes := [0xCA, 0xFE, 0xBA, 0xBE]

/-- The size of an entry for one of the files. -/
def fatEntrySize : Nat := 20

/-- The files in a file: itself, or those it lists. -/
def slices (file : Bytes) : List Bytes :=
  if file.take 4 == fatMagic then
    let count := numberAt .big file 4 4
    (List.range (min count (file.length / fatEntrySize))).map fun i =>
      let entry := Bytes.slice file (8 + i * fatEntrySize) fatEntrySize
      Bytes.slice file (numberAt .big entry 8 4) (numberAt .big entry 12 4)
  else [file]

/-- Reads a file, or the first of several in one; none if it is no Mach-O file. -/
def imageOf? (file : Bytes) : Option Image :=
  let all := slices file
  match all with
  | [] => none
  | first :: _ => (sectionsOf? first).map (⟨·, all.length⟩)

/-- A reader for plain Mach-O files; nothing is raised. -/
def library : Library where
  parse file := .ok ((imageOf? file).map (⟨·, fun _ => none⟩))
  unopened _ _ := none

end BinaryStrings.PlainReader.MachO

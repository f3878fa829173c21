import BinaryStrings.FileTree.Access

/-!
# Magic numbers

The format of an executable is told from the first four bytes of its file.  Some other kinds of file
are known by their first bytes too.
-/

namespace BinaryStrings

/-- The formats of executables. -/
inductive ImageFormat where
  | pe
  | elf
  | machO
  deriving DecidableEq, Repr

namespace ImageFormat

/-- The short name of a format. -/
def name : ImageFormat → String
  | pe => "pe"
  | elf => "elf"
  | machO => "macho"

/-- The first bytes of a Mach-O file of either word size and byte order, or of several of them in
one. -/
def machOMagics : List Bytes :=
  [[0xFE, 0xED, 0xFA, 0xCE], [0xFE, 0xED, 0xFA, 0xCF], [0xCE, 0xFA, 0xED, 0xFE],
    [0xCF, 0xFA, 0xED, 0xFE], [0xCA, 0xFE, 0xBA, 0xBE], [0xBE, 0xBA, 0xFE, 0xCA]]

/-- The first bytes of an ELF file. -/
def elfMagic : Bytes := 0x7F :: Bytes.ofAscii "ELF"

/-- The first bytes of a PE file. -/
def peMagic : Bytes := Bytes.ofAscii "MZ"

/-- The format that a file with these first bytes has. -/
def ofMagic? (magic : Bytes) : Option ImageFormat :=
  if magic.take 2 == peMagic then some pe
  else if magic.take 4 == elfMagic then some elf
  else if machOMagics.contains (magic.take 4) then some machO
  else none

/-- The name of a format, or the word for none. -/
def nameOrUnknown : Option ImageFormat → String
  | some format => format.name
  | none => "unknown"

end ImageFormat

namespace Magic

/-- What a file seems to be by its first bytes. -/
def hint (magic : Bytes) : String :=
  match ImageFormat.ofMagic? magic with
  | some .pe => "PE"
  | some .elf => "ELF"
  | some .machO => "Mach-O"
  | none =>
    if magic.take 2 == Bytes.ofAscii "PK" then "ZIP/Archive"
    else if magic.take 3 == [0x1F, 0x8B, 0x08] then "GZIP"
    else if magic.take 4 == Bytes.ofAscii "%PDF" then "PDF"
    else "Unknown"

/-- The number of bytes that formats are told from. -/
def size : Nat := 4

/-- What the file at a path seems to be. -/
def hintAt (tree : FileTree) (path : String) : String :=
  match tree.read path with
  | .ok data => hint (data.take size)
  | .error _ => "Unreadable"

end Magic

end BinaryStrings

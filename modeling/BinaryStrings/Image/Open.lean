import BinaryStrings.Image.Blob
import BinaryStrings.Image.Elf
import BinaryStrings.Image.MachO
import BinaryStrings.Image.Magic
import BinaryStrings.Image.Pe
import BinaryStrings.Log
import BinaryStrings.Unicode.CharacterNames

/-!
# Opening a file

Opens a file as a source of sections: by the format its first bytes tell, by a given format, or as a
raw blob.  Executables are read by libraries, of which some may be missing.  A library's own error for
the data of a file rejects the file; other exceptions pass.  So does the error for an ELF file that may
not be opened.
-/

namespace BinaryStrings

/-- How to open a file. -/
inductive OpenMode where
  | auto
  | known (format : ImageFormat)
  | raw
  deriving DecidableEq, Repr

namespace OpenMode

/-- The modes in the order in which they are listed. -/
def listed : List OpenMode := [auto, known .elf, known .pe, known .machO, raw]

/-- The name of a mode. -/
def name : OpenMode → String
  | auto => "auto"
  | known format => format.name
  | raw => "raw"

/-- The names of the modes. -/
def names : List String := listed.map name

/-- The mode of a name. -/
def ofName? (text : String) : Option OpenMode :=
  listed.find? (·.name == text)

end OpenMode

/-- What the program takes from elsewhere: the libraries that read executables, of which those for ELF
and Mach-O files may be missing, and the names of characters. -/
structure Readers where
  elf : Option Elf.Library
  pe : Pe.Library
  machO : Option MachO.Library
  characters : Unicode.CharacterNames

/-- Why a file cannot be opened. -/
inductive OpenError where
  | unknownMode (mode : String)
  | notFound (path : String)
  | unreadable (path : String) (error : FileError)
  | unrecognized (path : String)
  | noElfReader
  | noMachOReader
  | elf (path reason : String)
  | pe (path reason : String)
  | machO (path : String)
  | negativeBase (base : Int)
  /-- An exception that is not expected. -/
  | raised (exception : Raised)
  deriving DecidableEq, Repr

namespace OpenError

/-- The wording of an error. -/
def message : OpenError → String
  | unknownMode mode =>
    s!"Unknown mode '{mode}'. Valid: " ++ String.intercalate ", " OpenMode.names
  | notFound path => s!"File not found: {path}"
  | unreadable path error => s!"Cannot read {path}: " ++ error.message path
  | unrecognized path =>
    s!"Unrecognized executable format for {path}. " ++
      "Use mode 'raw' to scan the whole file as a code blob."
  | noElfReader =>
    "The 'pyelftools' library is not installed. Install with: pip install pyelftools"
  | noMachOReader => "The 'lief' library is not installed. Install with: pip install lief"
  | elf path reason => s!"Failed to parse ELF file {path}: {reason}"
  | pe path reason => s!"Failed to parse PE file {path}: {reason}"
  | machO path => s!"LIEF could not parse {path} as Mach-O"
  | negativeBase base => s!"base_address must be non-negative (got {base})"
  | raised exception => exception.message

/-- Whether an error rejects the file.  Others are about an argument, or not expected. -/
def isRejection : OpenError → Bool
  | unknownMode _ => false
  | negativeBase _ => false
  | raised _ => false
  | _ => true

end OpenError

namespace OpenFile

/-- The first bytes of the file at a path. -/
def readMagic (tree : FileTree) (path : String) (size : Nat) : Except OpenError Bytes :=
  match tree.read path with
  | .ok data => .ok (data.take size)
  | .error error => .error (.unreadable path error)

/-- What an exception means for a file that is opened. -/
def errorFor (rejected : String → OpenError) (raised : Raised) : OpenError :=
  match raised.family with
  | .library => rejected raised.message
  | _ => .raised raised

/-- Opens an ELF file.  The library gets the file when it is open. -/
def openElf (library : Elf.Library) (path : String) :
    Except FileError Bytes → Except OpenError Source
  | .error error => .error (.raised ⟨.systemOrValue, error.kind, error.message path⟩)
  | .ok data =>
    match library.parse data with
    | .ok image => .ok (image.source path)
    | .error raised => .error (errorFor (.elf path) raised)

/-- Opens a PE file. -/
def openPe (library : Pe.Library) (path : String) (file : Except FileError Bytes) :
    Except OpenError Source :=
  match library.openFile path file with
  | .ok image => .ok (image.source path)
  | .error raised => .error (errorFor (.pe path) raised)

/-- Opens a Mach-O file, and what is to be logged. -/
def openMachO (library : MachO.Library) (path : String) (file : Except FileError Bytes) :
    List Log.Line × Except OpenError Source :=
  match library.openFile path file with
  | .error raised => ([], .error (.raised raised))
  | .ok none => ([], .error (.machO path))
  | .ok (some binary) =>
    let count := binary.image.fileCount
    if count = 0 then ([], .error (.machO path))
    else
      let lines :=
        if 1 < count then
          [Log.info s!"{path} is a universal binary with {count} slices, using the first."]
        else []
      (lines, .ok (binary.source path))

/-- Opens an executable of a known format. -/
def openFormat (readers : Readers) (path : String) (file : Except FileError Bytes) :
    ImageFormat → List Log.Line × Except OpenError Source
  | .elf =>
    match readers.elf with
    | none => ([], .error .noElfReader)
    | some library => ([], openElf library path file)
  | .pe => ([], openPe readers.pe path file)
  | .machO =>
    match readers.machO with
    | none => ([], .error .noMachOReader)
    | some library => openMachO library path file

/-- Opens a raw blob. -/
def openBlob (base : Int) (data : Bytes) : Except OpenError Source :=
  if base < 0 then .error (.negativeBase base) else .ok (Blob.source base data)

/-- Opens the file at a path, by what opening it comes to. -/
def openFile (readers : Readers) (path : String) (file : Except FileError Bytes) (rawBase : Int) :
    OpenMode → List Log.Line × Except OpenError Source
  | .raw =>
    match file with
    | .ok data => ([], openBlob rawBase data)
    | .error error => ([], .error (.unreadable path error))
  | .known format => openFormat readers path file format
  | .auto =>
    match file with
    | .error error => ([], .error (.unreadable path error))
    | .ok data =>
      match ImageFormat.ofMagic? (data.take Magic.size) with
      | none => ([], .error (.unrecognized path))
      | some format =>
        let (lines, result) := openFormat readers path (.ok data) format
        (Log.debug s!"Detected format '{format.name}' for {path}" :: lines, result)

/-- Opens the file at a path as a source of sections, and what is to be logged. -/
def openSource (tree : FileTree) (readers : Readers) (path mode : String) (rawBase : Int) :
    List Log.Line × Except OpenError Source :=
  match OpenMode.ofName? mode with
  | none => ([], .error (.unknownMode mode))
  | some mode =>
    match tree.fileAt? path with
    | some file => openFile readers path file rawBase mode
    | none => ([], .error (.notFound path))

end OpenFile

end BinaryStrings

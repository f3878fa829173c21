import BinaryStrings.Sequence
import BinaryStrings.Server.Session

/-!
# The tool that tells formats

Tells the format of a file from its first bytes, whether some compiler's marks occur in it, and
which sections can be scanned.
-/

namespace BinaryStrings.Server.Format

/-- The name of the tool. -/
def toolName : String := "detect_binary_format"

/-- Marks that Go compilers leave. -/
def goMarks : List Bytes :=
  ["Go build", "go.buildid", "runtime.main", "runtime.goexit"].map Bytes.ofAscii

/-- Marks are looked for in so many bytes at the start of a file. -/
def searched : Nat := 2 * 1024 * 1024

/-- Whether one of the marks occurs near the start of a file. -/
def isGo (data : Bytes) : Bool :=
  let start := data.take searched
  goMarks.any fun mark => occursIn mark start

/-- What is said about the section of a label. -/
def describe : SectionResult → Except CallError Json
  | .ok region =>
    .ok (.obj [("available", .bool true), ("base_address", .str (Text.hexNumber region.base)),
      ("size", .int region.data.length)])
  | .error (.unavailable reason) =>
    .ok (.obj [("available", .bool false), ("reason", .str reason.message)])
  | .error (.failure raised) => .error (.extraction (.failure raised))

/-- What is said about the sections of a source, label by label. -/
def describeAll (source : Source) : List String → Except CallError Json.Members
  | [] => .ok []
  | label :: rest =>
    match describe (source.sectionAt label) with
    | .error error => .error error
    | .ok described =>
      match describeAll source rest with
      | .error error => .error error
      | .ok others => .ok ((label, described) :: others)

/-- What is said when no format is known. -/
def unknownMembers : Json.Members :=
  [("sections", .obj []),
    ("suggestion",
      .str "Unrecognized format. Use mode='raw' to scan the whole file as code.")]

/-- What is said about the sections of a file, and what is to be logged. -/
def sectionMembers (host : Host) (target : String) (data : Bytes) :
    Option ImageFormat → List Log.Line × Except CallError Json.Members
  | none => ([], .ok unknownMembers)
  | some format =>
    match OpenFile.openFormat host.readers target (.ok data) format with
    | (lines, .error error) =>
      if error.isRejection then
        (lines ++ [Log.warning s!"MCP: Section listing failed for {target}: {error.message}"],
          .ok [("sections", .obj []), ("error", .str error.message)])
      else (lines, .error (.opening error))
    | (lines, .ok source) =>
      (lines, (describeAll source Label.declared).map fun sections =>
        [("sections", .obj sections)])

/-- What is said about a file whatever its format. -/
def commonMembers (host : Host) (target : String) (data : Bytes) : Json.Members :=
  let magic := data.take Magic.size
  [("file", .str target),
    ("format", .str (ImageFormat.nameOrUnknown (ImageFormat.ofMagic? magic))),
    ("format_hint", .str (Magic.hint magic)), ("is_go", .bool (isGo data)),
    ("library_support", .obj [("pefile", .bool true), ("pyelftools", .bool host.readers.elf.isSome),
      ("lief", .bool host.readers.machO.isSome)])]

/-- What is said about the file at a path, and what is to be logged. -/
def detect (host : Host) (target : String) : List Log.Line × Except CallError Json :=
  match host.tree.read target with
  | .error error => ([], .error (.unreadable target error))
  | .ok data =>
    let format := ImageFormat.ofMagic? (data.take Magic.size)
    let (lines, sections) := sectionMembers host target data format
    (lines, sections.map fun members => .obj (commonMembers host target data ++ members))

/-- Answers a call. -/
def call (host : Host) (path : Json) : Call Json := do
  Call.tell "Detecting binary format"
  let session ← Call.session
  let target ← Call.require (targetOf host session path)
  let found ← Call.logged (detect host target)
  Call.respond toolName none found

end BinaryStrings.Server.Format

import BinaryStrings.Settings.Value

/-!
# Starting up

At its start the program looks for the libraries that read the formats and for the one that serves,
and takes its default values from the settings.  Without the reader of PE files it stops.
-/

namespace BinaryStrings.Startup

/-- What the program finds when it starts: for the readers of ELF and Mach-O files the reason why
they cannot be used, if they cannot. -/
structure Surroundings where
  peReader : Bool
  elfTrouble : Option String
  machOTrouble : Option String
  serverLibrary : Bool

/-- The values that hold where a call or a command line gives none. -/
structure Defaults where
  minLength : Int
  workers : Int
  deriving DecidableEq, Repr

/-- The defaults without any settings. -/
def Defaults.usual : Defaults := ⟨4, 1⟩

/-- Why the program does not start. -/
inductive Failure where
  | noPeReader
  | settings (error : Settings.Error)
  deriving DecidableEq, Repr

/-- What is printed when there is no reader of PE files. -/
def noPeReaderLines : List String :=
  ["[!] CRITICAL ERROR: The 'pefile' library is not found.",
    "[!] This library is essential for the script to function.",
    "[!] Install it with: pip install pefile"]

/-- What is logged about the libraries. -/
def libraryLines (found : Surroundings) : List Log.Line :=
  let elf :=
    match found.elfTrouble with
    | none => Log.debug "pyelftools found. ELF section access enabled."
    | some reason =>
      Log.warning s!"pyelftools not found. ELF binaries cannot be opened. Import error: {reason}"
  let machO :=
    match found.machOTrouble with
    | none => Log.debug "LIEF found. Mach-O section access enabled."
    | some reason =>
      Log.warning s!"LIEF not found. Mach-O binaries cannot be opened. Import error: {reason}"
  let server :=
    if found.serverLibrary then []
    else [Log.debug "MCP SDK not found. MCP server mode will be unavailable."]
  elf :: machO :: server

/-- The defaults that the settings give, and what is to be logged. -/
def defaults (environment : Settings.Environment) (store : Settings.Store) :
    List Log.Line × Except Settings.Error Defaults :=
  let usual := Defaults.usual
  match Settings.positive environment store Settings.minLengthKey usual.minLength with
  | (lines, .error error) => (lines, .error error)
  | (lines, .ok minLength) =>
    match Settings.positive environment store Settings.workersKey usual.workers with
    | (more, .error error) => (lines ++ more, .error error)
    | (more, .ok workers) => (lines ++ more, .ok ⟨minLength, workers⟩)

/-- Starts the program. -/
def start (found : Surroundings) (environment : Settings.Environment) (store : Settings.Store) :
    List Log.Line × Except Failure Defaults :=
  if !found.peReader then ([], .error .noPeReader)
  else
    match defaults environment store with
    | (lines, .error error) => (lines, .error (.settings error))
    | (lines, .ok values) => (lines ++ libraryLines found, .ok values)

end BinaryStrings.Startup

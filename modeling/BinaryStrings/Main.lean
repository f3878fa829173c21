import BinaryStrings.CommandLine.Program
import BinaryStrings.PlainReader

/-!
# The command-line program

Reads the files that a run needs into a file tree, runs the command line, and prints what the run
prints: the output, the log and the errors.
-/

namespace BinaryStrings.CommandLine

/-- The name of the program. -/
def programName : String := "binstrings"

/-- The environment variables that override settings. -/
def readEnvironment : IO Settings.Environment :=
  Settings.variableNames.filterMapM fun (_, name) => do
    let value ← IO.getEnv name
    return value.map fun value => (name, value)

/-- Puts the file at a path into a tree, with a link to it when its real path is another one.  A file
that cannot be read is left out. -/
def readFile (tree : FileTree) (path : String) : IO FileTree := do
  try
    let real ← IO.FS.realPath path
    let data ← IO.FS.readBinFile real
    let place := Path.place [] real.toString
    let given := Path.place tree.current path
    let tree := tree.put place (.file data.toList)
    return if given = place then tree else tree.put given (.link real.toString)
  catch _ => return tree

/-- The tree with the input file that a command line names. -/
def readInput (tree : FileTree) (defaults : Startup.Defaults) (words : List String) :
    IO FileTree := do
  match read defaults words with
  | .ok request =>
    match request.inputFile with
    | some path => readFile tree path
    | none => return tree
  | .error _ => return tree

/-- Prints log lines on the error output. -/
def printLog (lines : List Log.Line) : IO Unit :=
  lines.forM fun line => IO.eprintln line.text

/-- Runs a command line with the default values of the settings. -/
def runWith (tree : FileTree) (environment : Settings.Environment) (settings : Settings.Store)
    (defaults : Startup.Defaults) (words : List String) : IO UInt32 := do
  let tree ← readInput tree defaults words
  let world : World :=
    { name := programName
      surroundings := ⟨tree, Readers.all, .utf8⟩
      defaults
      environment
      settings
      serverLibrary := false
      interrupted := false
      ends := .finished }
  match Program.run world words with
  | .error failure =>
    IO.eprintln failure.message
    return 1
  | .ok outcome =>
    printLog outcome.log
    IO.print outcome.printed.output
    IO.eprint outcome.printed.errors
    return outcome.printed.exit.toUInt32

/-- Starts the program and runs a command line. -/
def runProgram (words : List String) : IO UInt32 := do
  let environment ← readEnvironment
  let current ← IO.currentDir
  let home := (← IO.getEnv "HOME").getD ""
  let path := Settings.pathIn home
  let tree ← readFile (.empty (Path.place [] current.toString)) path
  let settings := Settings.storeIn tree path
  let (lines, started) := Startup.start ⟨true, none, none, false⟩ environment settings
  printLog (Log.atLeast .info lines)
  match started with
  | .error .noPeReader =>
    Startup.noPeReaderLines.forM fun line => IO.eprintln line
    return 1
  | .error (.settings error) =>
    IO.eprintln error.message
    return 1
  | .ok defaults => runWith tree environment settings defaults words

end BinaryStrings.CommandLine

/-- The program. -/
def main (words : List String) : IO UInt32 :=
  BinaryStrings.CommandLine.runProgram words

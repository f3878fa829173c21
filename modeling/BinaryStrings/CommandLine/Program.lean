import BinaryStrings.CommandLine.Serve
import BinaryStrings.CommandLine.Usage

/-!
# The program

Runs a command line: reads the request, finds the input file, and scans it or serves.
-/

namespace BinaryStrings.CommandLine

/-- All that a run depends on besides its words. -/
structure World where
  /-- The name of the program. -/
  name : String
  surroundings : Surroundings
  defaults : Startup.Defaults
  environment : Settings.Environment
  settings : Settings.Store
  serverLibrary : Bool
  /-- The user interrupts the scan. -/
  interrupted : Bool
  /-- How the server ends, if it starts. -/
  ends : ServerEnd

/-- What a run does. -/
structure Outcome where
  printed : Printed
  log : List Log.Line
  serving : Serving

namespace Program

/-- An outcome without log and server. -/
def printedOnly (printed : Printed) : Outcome := ⟨printed, [], .nothing⟩

/-- What is printed about a mistake. -/
def mistakePrinted (world : World) (mistake : Mistake) : Printed :=
  ⟨2, "", Usage.usage world.name ++ Console.ended s!"{world.name}: error: {mistake.message}"⟩

/-- Lines below this level are not logged: with JSON output all but warnings, unless everything is
to be shown. -/
def level (request : Request) : Log.Level :=
  if request.json && !request.verbose then .warning else Serve.level request

/-- An outcome with the log as the request wants it. -/
def logged (request : Request) (lines : List Log.Line) (printed : Printed) (serving : Serving) :
    Outcome :=
  ⟨printed, Log.atLeast (level request) lines, serving⟩

/-- The real path of the input file of a request. -/
def inputPath (tree : FileTree) (request : Request) : Except Failure (Option String) :=
  match request.inputFile with
  | none => .ok none
  | some path =>
    if path.isEmpty then .ok none
    else if Path.hasNull path then .error .nullInPath
    else
      let real := tree.realPath path
      match tree.find real with
      | .error .tooManyLinks => .error (.linkLoop real)
      | _ => .ok (some real)

/-- What a run does whose input file does not exist. -/
def notFound (request : Request) (path : String) : Outcome :=
  let message := s!"Input file not found: {path}"
  logged request [Log.critical message] (told message) .nothing

/-- What a run does for a request with the real path of its input file. -/
def act (world : World) (request : Request) (path : Option String) : Except Failure Outcome :=
  if request.server then
    match Serve.run world.serverLibrary world.environment world.settings world.ends request path with
    | (_, .error failure) => .error failure
    | (lines, .ok (exit, serving)) => .ok (logged request lines ⟨exit, "", ""⟩ serving)
  else
    match path with
    | none => .ok (printedOnly (mistakePrinted world .noInputFile))
    | some path =>
      match Scan.run world.surroundings world.interrupted request path with
      | (_, .error failure) => .error failure
      | (lines, .ok printed) => .ok (logged request lines printed .nothing)

/-- What a run does for a request. -/
def runRequest (world : World) (request : Request) : Except Failure Outcome :=
  match inputPath world.surroundings.tree request with
  | .error failure => .error failure
  | .ok none => act world request none
  | .ok (some path) =>
    if world.surroundings.tree.isFile path then act world request (some path)
    else .ok (notFound request path)

/-- What a run does. -/
def run (world : World) (words : List String) : Except Failure Outcome :=
  match read world.defaults words with
  | .error .help =>
    .ok (printedOnly ⟨0, Usage.help world.name world.defaults, ""⟩)
  | .error (.mistake mistake) => .ok (printedOnly (mistakePrinted world mistake))
  | .ok request => runRequest world request

end Program

end BinaryStrings.CommandLine

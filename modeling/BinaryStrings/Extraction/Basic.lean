import BinaryStrings.Extraction.Source
import BinaryStrings.Log
import BinaryStrings.Text.Hex

/-!
# Extraction

The likely texts of several sections of a source become one report.  Sections are scanned one by
one or by several workers; in either case their entries are joined in the order of the labels, so
the report is the same.
-/

namespace BinaryStrings.Extraction

/-- Why an extraction fails. -/
inductive Error where
  | workers (given : Int)
  | failure (raised : Raised)
  deriving DecidableEq, Repr

/-- The wording of an error. -/
def Error.message : Error → String
  | .workers given => s!"workers must be >= 1 (got {given})"
  | .failure raised => raised.message

/-- A minimum length; below one it is one. -/
def effectiveLength (minLength : Int) : Int :=
  max minLength 1

/-- The entries of the section that a source gives for a label, and what is to be logged. -/
def scanSection (minLength : Int) (label : String) :
    SectionResult → List Log.Line × Except Raised (List Entry)
  | .error (.unavailable reason) =>
    ([Log.debug s!"Skipping section {label}: {reason.message}"], .ok [])
  | .error (.failure raised) => ([], .error raised)
  | .ok region =>
    if region.data.isEmpty then ([Log.debug s!"Skipping section {label}: empty"], .ok [])
    else
      let found := region.entries label minLength
      let base := Text.hexNumber region.base
      ([Log.debug
        s!"Section {label} @ {base} ({region.data.length} bytes): {found.length} strings"],
        .ok found)

/-- The entries of the sections of a source in the order of their labels, up to the first failure,
and what is to be logged. -/
def scanSections (source : Source) (minLength : Int) :
    List String → List Log.Line × Except Raised (List Entry)
  | [] => ([], .ok [])
  | label :: rest =>
    match scanSection minLength label (source.sectionAt label) with
    | (lines, .error raised) => (lines, .error raised)
    | (lines, .ok found) =>
      match scanSections source minLength rest with
      | (more, .error raised) => (lines ++ more, .error raised)
      | (more, .ok others) => (lines ++ more, .ok (found ++ others))

/-- The report of the likely texts in some sections of a source, and what is to be logged. -/
def extract (source : Source) (minLength workers : Int) (labels : List String) :
    List Log.Line × Except Error Report :=
  if workers < 1 then ([], .error (.workers workers))
  else
    match scanSections source (effectiveLength minLength) labels with
    | (lines, .error raised) => (lines, .error (.failure raised))
    | (lines, .ok found) =>
      let report := Report.ofFindings found
      let summary :=
        s!"Extracted {report.count} unique strings from {labels.length} sections ({found.length} before dedup)."
      (lines ++ [Log.info summary], .ok report)

end BinaryStrings.Extraction

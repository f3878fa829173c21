import BinaryStrings.Console
import BinaryStrings.Json.Writer
import BinaryStrings.Label
import BinaryStrings.Report.Document

/-!
# Printed reports

A report is printed as a table for readers, one entry a line behind counts per section, or as one
JSON value.
-/

namespace BinaryStrings.Listing

/-- Longer values are shortened to this length. -/
def mostShown : Nat := 120

/-- The mark of a shortened value. -/
def shortening : String := "..."

/-- What a table says besides the entries, and how it shows them. -/
structure Heading where
  path : String
  format : String
  minLength : Int
  limit : Option Int
  verbose : Bool
  warnings : List String
  deriving Repr

/-- A value as a table shows it: long ones are cut unless everything is to be shown. -/
def shownValue (verbose : Bool) (value : String) : String :=
  if mostShown < value.length && !verbose then
    String.ofList (value.toList.take (mostShown - shortening.length)) ++ shortening
  else value

/-- A text with spaces behind it up to a width. -/
def padded (width : Nat) (text : String) : String :=
  text ++ String.ofList (List.replicate (width - text.length) ' ')

/-- The width of the labels in a table. -/
def labelWidth : Nat := 13

/-- The line of an entry. -/
def entryLine (addressWidth : Nat) (verbose : Bool) (entry : Entry) : String :=
  "  0x" ++ Text.hexColumns addressWidth entry.address ++ "  " ++ padded labelWidth entry.label ++
    " " ++ shownValue verbose entry.value

/-- Addresses have sixteen digits if one of them needs more than eight. -/
def addressWidth (entries : List Entry) : Nat :=
  if entries.any (fun entry => 0xFFFFFFFF < entry.address) then 16 else 8

/-- The first entries up to a limit; a negative limit leaves out so many at the end. -/
def shownEntries (report : Report) (limit : Option Int) : List Entry :=
  match limit with
  | none => report.entries
  | some n =>
    if 0 ≤ n then report.entries.take n.toNat
    else report.entries.take (report.count - n.natAbs)

/-- The counts per section. -/
def countLines (report : Report) : List String :=
  "\n--- Strings per Section ---" ::
    Label.declared.map fun label =>
      "  " ++ padded labelWidth label ++ s!" {report.countOf label}"

/-- The entries and how many more there are. -/
def entryLines (report : Report) (limit : Option Int) (verbose : Bool) : List String :=
  let shown := shownEntries report limit
  if shown.isEmpty then ["  No strings found."]
  else
    let hidden := report.count - shown.length
    shown.map (entryLine (addressWidth shown) verbose) ++
      (if 0 < hidden then [s!"  ... {hidden} more (use --limit to show more)"] else [])

/-- The table of a report, text by text. -/
def table (heading : Heading) (report : Report) : List String :=
  ["[*] File: " ++ heading.path,
    "[*] Format: " ++ heading.format ++ s!"   Min Length: {heading.minLength}"] ++
  heading.warnings.map ("[!] " ++ ·) ++
  countLines report ++
  [s!"\n--- Strings ({report.count} total) ---"] ++
  entryLines report heading.limit heading.verbose

/-- A report as JSON text. -/
def json (indent : Option Nat) (report : Report) : String :=
  Json.write ⟨false, indent, false⟩ report.toJson

end BinaryStrings.Listing

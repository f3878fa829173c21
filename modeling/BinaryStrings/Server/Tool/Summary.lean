import BinaryStrings.Server.Session

/-!
# The tool that sums up sections

Tells for each section of a file how many strings it has and where the first and the last one is.
-/

namespace BinaryStrings.Server.Summary

/-- The name of the tool. -/
def toolName : String := "get_string_section_summary"

/-- The address of an entry as text, null for none. -/
def addressOf : Option Entry → Json
  | some entry => .str (Text.hexNumber entry.address)
  | none => .null

/-- The summary of the entries of one section. -/
def ofEntries (entries : List Entry) : Json :=
  .obj [("count", .int entries.length), ("first_address", addressOf entries.head?),
    ("last_address", addressOf entries.getLast?)]

/-- The summary of the report of a file. -/
def summary (target : String) (report : Report) : Json :=
  let sections := Label.declared.map fun label =>
    (label, ofEntries (report.entries.filter (·.label == label)))
  .obj [("file", .str target), ("total", .int report.count), ("sections", .obj sections)]

/-- Answers a call. -/
def call (host : Host) (path minLength mode : Json) : Call Json := do
  Call.tell "Summarizing extracted strings per section"
  let minLength ← Call.require (Argument.minLength minLength)
  let mode ← Call.require (Argument.mode mode)
  let (target, report) ← reportFor host path mode minLength
  return summary target report

end BinaryStrings.Server.Summary

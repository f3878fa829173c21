import BinaryStrings.Json.Basic
import BinaryStrings.Report

/-!
# Reports as JSON values

An entry is an object of value, address and section; a report is an object of its entries and their
number.
-/

namespace BinaryStrings

/-- An entry as a JSON value. -/
def Entry.toJson (entry : Entry) : Json :=
  .obj [("value", .str entry.value), ("address", .int entry.address), ("section", .str entry.label)]

/-- A report as a JSON value. -/
def Report.toJson (report : Report) : Json :=
  .obj [("strings", .arr (report.entries.map Entry.toJson)), ("count", .int report.count)]

end BinaryStrings

import BinaryStrings.Report.Document
import BinaryStrings.Server.Session

/-!
# The tool that lists strings

Lists the strings of a file page by page, all of them or those of some sections.
-/

namespace BinaryStrings.Server.Page

/-- The name of the tool. -/
def toolName : String := "extract_binary_strings"

/-- What a caller can narrow. -/
def advice : String := "the 'limit' parameter or 'sections'"

/-- The part of a report that a page shows. -/
def shown (report : Report) (offset limit : Int) : List Entry :=
  (report.entries.drop offset.toNat).take limit.toNat

/-- A page of the report of a file. -/
def page (target : String) (report : Report) (offset limit : GivenNumber) : Json :=
  let entries := shown report offset.value limit.value
  .obj [("file", .str target), ("strings", .arr (entries.map Entry.toJson)),
    ("count", .int report.count),
    ("pagination_info", .obj [("offset", offset.toJson), ("limit", limit.toJson),
      ("returned", .int entries.length),
      ("has_more", .bool (offset.value + entries.length < report.count))])]

/-- The note about a request. -/
def requestNote (minLength mode labels limit offset : Json) : String :=
  s!"Request to extract strings. min_length: {minLength.phrase}, mode: {mode.phrase}, " ++
    s!"sections: {labels.phrase}, limit: {limit.phrase}, offset: {offset.phrase}"

/-- Answers a call. -/
def call (host : Host) (path minLength mode labels limit offset : Json) : Call Json := do
  Call.tell (requestNote minLength mode labels limit offset)
  let minLength ← Call.require (Argument.minLength minLength)
  let mode ← Call.require (Argument.mode mode)
  let labels ← Call.require (Argument.labels labels)
  let limit ← Call.require (Argument.limit limit)
  let offset ← Call.require (Argument.offset offset)
  let (target, report) ← reportFor host path mode minLength
  Call.respond toolName advice (page target (report.inSections labels) offset limit)

end BinaryStrings.Server.Page

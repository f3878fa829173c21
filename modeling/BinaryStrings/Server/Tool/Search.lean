import BinaryStrings.Report.Document
import BinaryStrings.Server.Session

/-!
# The tool that searches strings

Lists the strings of a file that one of several patterns matches.  The patterns are put together as
the alternatives of one.
-/

namespace BinaryStrings.Server.Search

/-- The name of the tool. -/
def toolName : String := "search_binary_strings"

/-- What a caller can narrow. -/
def advice : String := "the 'limit' parameter or more specific 'regex_patterns'"

/-- One pattern with the given ones as its alternatives. -/
def combined (patterns : List String) : String :=
  String.intercalate "|" (patterns.map fun pattern => "(?:" ++ pattern ++ ")")

/-- What a search selects. -/
def selection (patterns : List String) (labels : List String) (caseSensitive : Bool) : Selection :=
  ⟨some (combined patterns), labels, none, caseSensitive⟩

/-- The number of matches that are returned, as it was given if it is the limit. -/
def returned (limit : GivenNumber) (count : Nat) : Json :=
  if (count : Int) < limit.value then .int count else limit.toJson

/-- The matches in a file. -/
def results (target : String) (found : Report) (limit : GivenNumber) : Json :=
  .obj [("file", .str target),
    ("matches", .arr ((found.entries.take limit.value.toNat).map Entry.toJson)),
    ("total_matches_found", .int found.count),
    ("returned_matches", returned limit found.count)]

/-- Answers a call. -/
def call (host : Host) (patterns path minLength mode labels limit caseSensitive : Json) :
    Call Json := do
  let count ← Call.require (Argument.patternCount patterns)
  Call.tell s!"Request to search strings. Patterns: {count}, Limit: {limit.phrase}"
  let patterns ← Call.require (Argument.patterns patterns)
  let limit ← Call.require (Argument.limit limit)
  let minLength ← Call.require (Argument.minLength minLength)
  let mode ← Call.require (Argument.mode mode)
  let labels ← Call.require (Argument.labels labels)
  let (target, report) ← reportFor host path mode minLength
  let chosen := report.select host.readers.characters (selection patterns labels caseSensitive.isTruthy)
  let found ← Call.require (chosen.mapError .selection)
  Call.respond toolName advice (results target found limit)

end BinaryStrings.Server.Search

import BinaryStrings.Report.Document
import BinaryStrings.Server.Session

/-!
# The tool that looks up an address

Finds the string of a file that starts at an address or reaches over it.
-/

namespace BinaryStrings.Server.Lookup

/-- The name of the tool. -/
def toolName : String := "get_string_at_address"

/-- The number of bytes of an entry. -/
def size (entry : Entry) : Nat :=
  Utf8.byteCount entry.value.toList

/-- The first of entries in ascending order that holds an address; the search ends at an entry that
starts behind it. -/
def find? (address : Int) : List Entry → Option Entry
  | [] => none
  | entry :: rest =>
    if address < entry.address then none
    else if address < entry.address + size entry then some entry
    else find? address rest

/-- The answer about an address. -/
def answer (report : Report) (address : Int) : Json :=
  match find? address report.entries with
  | some entry =>
    .obj [("found", .bool true), ("string", entry.toJson),
      ("offset_in_string", .int (address - entry.address))]
  | none => .obj [("found", .bool false), ("address", .str (Text.hexNumber address))]

/-- Answers a call. -/
def call (host : Host) (address path minLength mode : Json) : Call Json := do
  let address ← Call.require (Argument.address address)
  let minLength ← Call.require (Argument.minLength minLength)
  let mode ← Call.require (Argument.mode mode)
  let shown := Text.hexNumber address
  Call.tell s!"Looking up string at {shown}"
  let (_, report) ← reportFor host path mode minLength
  return answer report address

end BinaryStrings.Server.Lookup

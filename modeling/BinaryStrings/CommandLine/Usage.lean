import BinaryStrings.CommandLine.Flag
import BinaryStrings.Listing

/-!
# Help

The usage of the program, filled into lines, and the help with one entry for each flag.
-/

namespace BinaryStrings.CommandLine

namespace Usage

/-- Lines have at most this width. -/
def width : Nat := 78

/-- What the program does. -/
def purpose : String := "Low-noise string extraction from executable sections."

/-- So many spaces. -/
def spaces (count : Nat) : String :=
  String.ofList (List.replicate count ' ')

/-- A flag with what follows it. -/
def withValue (flag : Flag) (name : String) : String :=
  match flag.following with
  | .nothing => name
  | .one => name ++ " " ++ flag.placeholder
  | .several => name ++ " " ++ flag.placeholder ++ " [" ++ flag.placeholder ++ " ...]"

/-- A flag in the usage: its first name in brackets. -/
def part (flag : Flag) : String :=
  "[" ++ withValue flag (flag.names.headD "") ++ "]"

/-- Parts put into lines of at most `limit` characters, where `column` characters of the line under
way, `line`, are taken and a new line has `start` before its first part. -/
def fill (limit start : Nat) (column : Nat) (line : List String) : List String → List (List String)
  | [] => if line.isEmpty then [] else [line.reverse]
  | part :: rest =>
    if limit < column + 1 + part.length && !line.isEmpty then
      line.reverse :: fill limit start (start + 1 + part.length) [part] rest
    else fill limit start (column + 1 + part.length) (part :: line) rest

/-- The start of the usage. -/
def lead : String := "usage: "

/-- The usage of the program under a name. -/
def usage (program : String) : String :=
  let indent := lead.length + program.length + 1
  let lines := fill width (indent - 1) (lead.length - 1) [] (program :: Flag.all.map part)
  lead ++ String.intercalate ("\n" ++ spaces indent) (lines.map (String.intercalate " ")) ++ "\n"

/-- The column where descriptions start. -/
def descriptionColumn : Nat := 24

/-- The names of a flag, each with what follows it. -/
def invocation (flag : Flag) : String :=
  String.intercalate ", " (flag.names.map (withValue flag))

/-- The entry of a flag: names and description, on one line if the names are short. -/
def entry (defaults : Startup.Defaults) (flag : Flag) : String :=
  let shown := invocation flag
  let description := flag.description defaults ++ "\n"
  if shown.length ≤ descriptionColumn - 4 then
    "  " ++ Listing.padded (descriptionColumn - 4) shown ++ "  " ++ description
  else "  " ++ shown ++ "\n" ++ spaces descriptionColumn ++ description

/-- The entries of a group under its heading. -/
def groupText (defaults : Startup.Defaults) (group : FlagGroup) : String :=
  let flags := Flag.all.filter (·.group == group)
  "\n" ++ group.title ++ ":\n" ++ String.join (flags.map (entry defaults))

/-- The help of the program under a name. -/
def help (program : String) (defaults : Startup.Defaults) : String :=
  usage program ++ "\n" ++ purpose ++ "\n" ++
    String.join (FlagGroup.all.map (groupText defaults))

end Usage

end BinaryStrings.CommandLine

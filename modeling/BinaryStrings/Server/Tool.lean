import BinaryStrings.Server.Tool.Format
import BinaryStrings.Server.Tool.Lookup
import BinaryStrings.Server.Tool.Page
import BinaryStrings.Server.Tool.Search
import BinaryStrings.Server.Tool.Summary

/-!
# Tools

The tools of the server, their parameters, and how a call reaches its tool.  Arguments are given by
name; those that are not given have default values.
-/

namespace BinaryStrings.Server

/-- The tools of the server. -/
inductive Tool where
  | page
  | search
  | lookup
  | summary
  | format
  deriving DecidableEq, Repr

/-- A parameter of a tool, with its default value if it has one. -/
structure Parameter where
  name : String
  absent : Option Json

namespace Parameter

/-- A parameter that is null when it is not given. -/
def optional (name : String) : Parameter := ⟨name, some .null⟩

/-- A parameter that has to be given. -/
def required (name : String) : Parameter := ⟨name, none⟩

/-- The path of the file. -/
def path : Parameter := optional "file_path"

/-- The least length of strings. -/
def minLength : Parameter := optional "min_length"

/-- How the file is opened. -/
def mode : Parameter := optional "mode"

/-- The labels of the sections. -/
def labels : Parameter := optional "sections"

/-- The number of entries to return. -/
def limit (absent : Int) : Parameter := ⟨"limit", some (.int absent)⟩

end Parameter

namespace Tool

/-- All tools. -/
def all : List Tool := [page, search, lookup, summary, format]

/-- The name of a tool. -/
def name : Tool → String
  | page => Page.toolName
  | search => Search.toolName
  | lookup => Lookup.toolName
  | summary => Summary.toolName
  | format => Format.toolName

/-- The tool of a name. -/
def ofName? (text : String) : Option Tool :=
  all.find? (·.name == text)

/-- The parameters of a tool. -/
def parameters : Tool → List Parameter
  | page =>
    [.path, .minLength, .mode, .labels, .limit 200, ⟨"offset", some (.int 0)⟩]
  | search =>
    [.required "regex_patterns", .path, .minLength, .mode, .labels, .limit 100,
      ⟨"case_sensitive", some (.bool false)⟩]
  | lookup => [.required "address", .path, .minLength, .mode]
  | summary => [.path, .minLength, .mode]
  | format => [.path]

/-- The value of a parameter: the one given, or its default. -/
def valueOf (tool : Tool) (given : Json.Members) (parameter : Parameter) : Except CallError Json :=
  match given.get? parameter.name, parameter.absent with
  | some value, _ => .ok value
  | none, some value => .ok value
  | none, none => .error (.missingArgument tool.name parameter.name)

/-- The values of the parameters of a tool, in their order. -/
def values (tool : Tool) (given : Json.Members) : Except CallError (List Json) :=
  match given.find? fun member => !tool.parameters.any (·.name == member.1) with
  | some (name, _) => .error (.unknownArgument tool.name name)
  | none => tool.parameters.mapM (tool.valueOf given)

/-- Answers a call with values for all parameters. -/
def callWith (host : Host) : Tool → List Json → Call Json
  | page, [path, minLength, mode, labels, limit, offset] =>
    Page.call host path minLength mode labels limit offset
  | search, [patterns, path, minLength, mode, labels, limit, caseSensitive] =>
    Search.call host patterns path minLength mode labels limit caseSensitive
  | lookup, [address, path, minLength, mode] => Lookup.call host address path minLength mode
  | summary, [path, minLength, mode] => Summary.call host path minLength mode
  | format, [path] => Format.call host path
  | _, _ => return .null

/-- Answers a call of a tool with arguments by name. -/
def call (host : Host) (tool : Tool) (given : Json.Members) : Call Json := do
  let values ← Call.require (tool.values given)
  tool.callWith host values

end Tool

end BinaryStrings.Server

import BinaryStrings.Image.Open
import BinaryStrings.Startup

/-!
# Flags

The flags of the command line: their names, what follows them, and what the help says about them.
-/

namespace BinaryStrings.CommandLine

/-- The flags in the order in which the help lists them. -/
inductive Flag where
  | help
  | inputFile
  | mode
  | rawBase
  | verbose
  | minLength
  | workers
  | label
  | pattern
  | limit
  | json
  | server
  | host
  | port
  | transport
  | allowedPaths
  deriving DecidableEq, Repr

/-- What follows a flag. -/
inductive Following where
  | nothing
  | one
  /-- One or more. -/
  | several
  deriving DecidableEq, Repr

/-- Where the help lists a flag. -/
inductive FlagGroup where
  | general
  | listing
  | serving
  deriving DecidableEq, Repr

namespace FlagGroup

/-- The groups in order. -/
def all : List FlagGroup := [general, listing, serving]

/-- The heading of a group. -/
def title : FlagGroup → String
  | general => "options"
  | listing => "CLI Mode Specific Options (ignored if --mcp-server is used)"
  | serving => "MCP Server Mode Specific Options"

end FlagGroup

/-- How the server talks to its client. -/
inductive Transport where
  | stdio
  | sse
  deriving DecidableEq, Repr

namespace Transport

/-- The transports in order. -/
def all : List Transport := [stdio, sse]

/-- The name of a transport. -/
def name : Transport → String
  | stdio => "stdio"
  | sse => "sse"

/-- The transport of a name. -/
def ofName? (text : String) : Option Transport :=
  all.find? (·.name == text)

end Transport

namespace Flag

/-- All flags in order. -/
def all : List Flag :=
  [help, inputFile, mode, rawBase, verbose, minLength, workers, label, pattern, limit, json, server,
    host, port, transport, allowedPaths]

/-- The names of a flag. -/
def names : Flag → List String
  | help => ["-h", "--help"]
  | inputFile => ["--input-file"]
  | mode => ["--mode"]
  | rawBase => ["--raw-base"]
  | verbose => ["-v", "--verbose"]
  | minLength => ["-n", "--min-length"]
  | workers => ["--workers"]
  | label => ["--section"]
  | pattern => ["-r", "--regex"]
  | limit => ["--limit"]
  | json => ["--json"]
  | server => ["--mcp-server"]
  | host => ["--mcp-host"]
  | port => ["--mcp-port"]
  | transport => ["--mcp-transport"]
  | allowedPaths => ["--allowed-paths"]

/-- The names of a flag as a message gives them. -/
def nameList (flag : Flag) : String :=
  String.intercalate "/" flag.names

/-- What follows a flag. -/
def following : Flag → Following
  | help => .nothing
  | verbose => .nothing
  | json => .nothing
  | server => .nothing
  | allowedPaths => .several
  | _ => .one

/-- The group of a flag. -/
def group : Flag → FlagGroup
  | label => .listing
  | pattern => .listing
  | limit => .listing
  | json => .listing
  | server => .serving
  | host => .serving
  | port => .serving
  | transport => .serving
  | allowedPaths => .serving
  | _ => .general

/-- The values that a flag takes, where only some are possible. -/
def choices : Flag → List String
  | mode => OpenMode.names
  | label => Label.declared
  | transport => Transport.all.map Transport.name
  | _ => []

/-- What stands for the value of a flag in the help. -/
def placeholder (flag : Flag) : String :=
  match flag with
  | inputFile => "INPUT_FILE"
  | rawBase => "RAW_BASE"
  | minLength => "MIN_LENGTH"
  | workers => "WORKERS"
  | pattern => "REGEX_PATTERN"
  | limit => "LIMIT"
  | host => "MCP_HOST"
  | port => "MCP_PORT"
  | allowedPaths => "ALLOWED_PATHS"
  | flag => "\x7b" ++ String.intercalate "," flag.choices ++ "\x7d"

/-- The host where the server listens unless a flag says otherwise. -/
def usualHost : String := "127.0.0.1"

/-- The port where the server listens unless a flag says otherwise. -/
def usualPort : Int := 8082

/-- What the help says about a flag. -/
def description (defaults : Startup.Defaults) : Flag → String
  | help => "show this help message and exit"
  | inputFile =>
    "Path to the binary to scan. Required in CLI mode; optional pre-load in MCP mode."
  | mode =>
    "Binary format. 'auto' detects from magic bytes; 'raw' scans the whole file as code " ++
      "(default: auto)."
  | rawBase => "Load address for --mode raw (e.g., 0x400000). Default: 0."
  | verbose => "Enable debug logging and untruncated output."
  | minLength => s!"Minimum string length in characters (default: {defaults.minLength})."
  | workers => s!"Threads used to scan sections concurrently (default: {defaults.workers})."
  | label => "Only show strings from this section (multiple allowed)."
  | pattern => "Only show strings matching this regex (case-insensitive)."
  | limit => "Maximum number of strings to print."
  | json => "Print the report as JSON (\x7bstrings, count\x7d)."
  | server => "Run in MCP server mode."
  | host => s!"MCP server host (default: {usualHost})."
  | port => s!"MCP server port (default: {usualPort})."
  | transport => "MCP transport protocol (default: stdio)."
  | allowedPaths => "Restrict MCP tools to files under these directories."

/-- The flag of a name. -/
def ofName? (text : String) : Option Flag :=
  all.find? fun flag => flag.names.contains text

/-- Every name with its flag, in order. -/
def named : List (String × Flag) :=
  all.flatMap fun flag => flag.names.map fun name => (name, flag)

end Flag

end BinaryStrings.CommandLine

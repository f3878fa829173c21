import BinaryStrings.CommandLine.Scan
import BinaryStrings.Server.Session
import BinaryStrings.Settings.Value

/-!
# Serving from the command line

Sets up a session from a request and starts the server.  Allowed paths come from the command line,
or else from the settings.
-/

namespace BinaryStrings.CommandLine

/-- How the server ends. -/
inductive ServerEnd where
  | finished
  | interrupted
  | failed (reason : String)
  deriving DecidableEq, Repr

/-- Where a server that is not on the standard streams listens, and how much it logs. -/
structure Listener where
  host : String
  port : Int
  level : Log.Level
  deriving DecidableEq, Repr

/-- A session, and the transport that the server was started on, if it was. -/
structure Serving where
  session : Server.Session
  transport : Option Transport
  listener : Option Listener

/-- Nothing served. -/
def Serving.nothing : Serving := ⟨.initial, none, none⟩

namespace Serve

/-- What is logged when there is no server library. -/
def noLibrary : Log.Line :=
  Log.critical
    "MCP SDK not available. Cannot start MCP server. Please install it (e.g., 'pip install \"mcp[cli]\"') and re-run."

/-- How much is logged for a request. -/
def level (request : Request) : Log.Level :=
  if request.verbose then .debug else .info

/-- The session of a request. -/
def session (request : Request) (path : Option String) (allowed : Option (List String)) :
    Server.Session :=
  { Server.Session.initial with
    file := path
    mode := request.mode.name
    rawBase := request.rawBase
    allowed := allowed }

/-- The allowed paths of a request, and what is to be logged. -/
def allowedPaths (environment : Settings.Environment) (store : Settings.Store)
    (request : Request) : List Log.Line × Except Settings.Error (Option (List String)) :=
  match request.allowedPaths with
  | some (path :: paths) => ([], .ok (some (path :: paths)))
  | _ => Settings.allowedPaths environment store

/-- What is logged about a session before the server starts. -/
def sessionLines (request : Request) (path : Option String) (allowed : Option (List String)) :
    List Log.Line :=
  (match path with
  | some path =>
    [Log.info s!"MCP Server: Pre-loaded input file: {path} (Mode: {request.mode.name})"]
  | none => []) ++
  (match allowed with
  | some (root :: roots) =>
    [Log.info
      ("MCP Server: Restricting file access to: " ++ String.intercalate ", " (root :: roots))]
  | _ => [])

/-- Where the server of a request listens. -/
def listener (request : Request) : Option Listener :=
  match request.transport with
  | .stdio => none
  | .sse => some ⟨request.host, request.port, level request⟩

/-- What is logged when the server starts. -/
def startLine (request : Request) : Log.Line :=
  match request.transport with
  | .stdio => Log.info "Starting MCP server (stdio)."
  | .sse => Log.info s!"Starting MCP server (SSE) on http://{request.host}:{request.port}"

/-- The exit code of a server that ended, and what is logged about that. -/
def ending : ServerEnd → List Log.Line × Nat
  | .finished => ([], 0)
  | .interrupted => ([Log.info "MCP Server stopped by user (KeyboardInterrupt)."], 0)
  | .failed reason =>
    ([Log.critical s!"MCP Server encountered an unhandled error: {reason}"], 1)

/-- Serves a request; `ends` says how the server ends. -/
def run (library : Bool) (environment : Settings.Environment) (store : Settings.Store)
    (ends : ServerEnd) (request : Request) (path : Option String) :
    List Log.Line × Except Failure (Nat × Serving) :=
  if !library then ([noLibrary], .ok (1, .nothing))
  else
    match allowedPaths environment store request with
    | (lines, .error error) => (lines, .error (.settings error))
    | (lines, .ok allowed) =>
      let (more, exit) := ending ends
      (lines ++ sessionLines request path allowed ++ startLine request :: more,
        .ok (exit, ⟨session request path allowed, some request.transport, listener request⟩))

end Serve

end BinaryStrings.CommandLine

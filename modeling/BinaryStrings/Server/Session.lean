import BinaryStrings.Server.Argument
import BinaryStrings.Server.ReportCache
import BinaryStrings.Server.SizeGuard
import BinaryStrings.Startup

/-!
# Sessions

A session is what the server knows between calls: the file that was loaded before, how to open it,
the allowed paths, and the cache.  A call reads files and may fail; whether it does or not, it
leaves a session, notes to the client and log lines.
-/

namespace BinaryStrings.Server

/-- What calls work with: the files, the readers of formats, and the default values. -/
structure Host where
  tree : FileTree
  readers : Readers
  defaults : Startup.Defaults

/-- A report in the cache and the least length as it was given. -/
structure CachedReport where
  report : Report
  minLength : GivenNumber

/-- What the server knows between calls. -/
structure Session where
  file : Option String
  mode : String
  rawBase : Int
  allowed : Option (List String)
  cache : ReportCache CachedReport

/-- The session at the start. -/
def Session.initial : Session := ⟨none, OpenMode.auto.name, 0, none, .empty⟩

/-- The session with an empty cache, and the number of reports that were in it. -/
def Session.clear (session : Session) : Nat × Session :=
  let (count, cache) := session.cache.clear
  (count, { session with cache })

/-! ## Calls -/

/-- How far a call has come: the session, the notes sent and the lines logged. -/
structure Progress where
  session : Session
  notes : List Note
  log : List Log.Line

/-- A call in progress. -/
abbrev Call (α : Type) := ExceptT CallError (StateM Progress) α

namespace Call

variable {α : Type}

/-- Sends notes. -/
def send (notes : List Note) : Call Unit :=
  modify fun progress => { progress with notes := progress.notes ++ notes }

/-- Sends a note about progress. -/
def tell (message : String) : Call Unit :=
  send [⟨.info, message⟩]

/-- Logs lines. -/
def log (lines : List Log.Line) : Call Unit :=
  modify fun progress => { progress with log := progress.log ++ lines }

/-- The session so far. -/
def session : Call Session := do
  let progress ← get
  return progress.session

/-- Changes the session. -/
def setSession (session : Session) : Call Unit :=
  modify fun progress => { progress with session }

/-- Goes on with a result or refuses the call. -/
def require : Except CallError α → Call α
  | .ok value => pure value
  | .error error => throw error

/-- Logs lines and goes on with a result or refuses the call. -/
def logged (outcome : List Log.Line × Except CallError α) : Call α := do
  log outcome.1
  require outcome.2

/-- The response of a tool, made to fit. -/
def respond (tool : String) (advice : Option String) (value : Json) : Call Json := do
  let response := SizeGuard.guarded tool advice (.value value)
  send response.notes
  log response.log
  return response.value

/-- What a call leaves behind: how far it came, and its result. -/
def run (session : Session) (call : Call α) : Except CallError α × Progress :=
  StateT.run (ExceptT.run call) ⟨session, [], []⟩

end Call

/-! ## The file of a call -/

/-- The path that a call is about: the one it gives, or that of the loaded file. -/
def chosenPath (session : Session) (path : Json) : Except CallError Json :=
  let chosen := if path.isTruthy then path else (session.file.map Json.str).getD .null
  if chosen.isTruthy then .ok chosen else .error .noFile

/-- Checks a path that a call gives against the allowed ones. -/
def checkedPath (host : Host) (session : Session) (path : Json) : Except CallError Unit :=
  match path with
  | .str text =>
    if host.tree.hasRealPath text then
      (Sandbox.check host.tree session.allowed (host.tree.realPath text)).mapError .denied
    else .error .noRealPath
  | value => .error (.pathNoText value.kindWord)

/-- The path of the file that a call is about.  A path that the call gives, even an empty one, has to
be an allowed one. -/
def targetOf (host : Host) (session : Session) (path : Json) : Except CallError String := do
  let chosen ← chosenPath session path
  match path with
  | .null => pure ()
  | _ => checkedPath host session chosen
  let target := chosen.phrase
  if host.tree.isFile target then return target else throw (.notFound target)

/-! ## Reports -/

/-- The name of the mode in which a file is opened. -/
def modeFor (session : Session) (target : String) (mode : Option String) : String :=
  mode.getD (if session.file == some target then session.mode else OpenMode.auto.name)

/-- The load address for a mode. -/
def rawBaseFor (session : Session) (mode : String) : Int :=
  if mode == OpenMode.raw.name then session.rawBase else 0

/-- The least length of a call that gives one or none. -/
def minLengthFor (host : Host) (minLength : Option GivenNumber) : GivenNumber :=
  minLength.getD ⟨host.defaults.minLength, false⟩

/-- What the report of a call depends on. -/
def keyFor (host : Host) (session : Session) (target : String) (mode : Option String)
    (minLength : Option GivenNumber) : ReportKey :=
  let mode := modeFor session target mode
  ⟨host.tree.realPath target, mode, rawBaseFor session mode, (minLengthFor host minLength).value⟩

/-- The report of a file opened and scanned anew, and what is to be logged. -/
def freshReport (host : Host) (target mode : String) (rawBase minLength : Int) :
    List Log.Line × Except CallError Report :=
  match OpenFile.openSource host.tree host.readers target mode rawBase with
  | (lines, .error error) => (lines, .error (.opening error))
  | (lines, .ok source) =>
    let (more, result) :=
      Extraction.extract source minLength host.defaults.workers Label.declared
    (lines ++ more, result.mapError .extraction)

/-- The session with a report in its cache, and what is to be logged. -/
def Session.keep (session : Session) (key : ReportKey) (report : CachedReport) :
    List Log.Line × Session :=
  let (lines, cache) := session.cache.set key report
  (lines, { session with cache })

/-- The report of a file, from the cache if it is there. -/
def reportOf (host : Host) (target : String) (mode : Option String)
    (minLength : Option GivenNumber) : Call Report := do
  let session ← Call.session
  let key := keyFor host session target mode minLength
  match session.cache.get? key with
  | some cached =>
    Call.log [Log.debug s!"MCP: Using cached report for {target}"]
    return cached.report
  | none =>
    let report ← Call.logged (freshReport host target key.mode key.rawBase key.minLength)
    let (lines, session) := session.keep key ⟨report, minLengthFor host minLength⟩
    Call.log lines
    Call.setSession session
    return report

/-- The report that a call is about, by the path, mode and least length it gives. -/
def reportFor (host : Host) (path : Json) (mode : Option String)
    (minLength : Option GivenNumber) : Call (String × Report) := do
  let session ← Call.session
  let target ← Call.require (targetOf host session path)
  let report ← reportOf host target mode minLength
  return (target, report)

end BinaryStrings.Server

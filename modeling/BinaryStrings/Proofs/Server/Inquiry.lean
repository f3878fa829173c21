import BinaryStrings.Proofs.Server.Isolation
import BinaryStrings.Proofs.Server.Nesting

/-!
# What calls do with reports

A call checks its arguments and its path, and is then either decided or an *inquiry*: it asks for the
report of a file, and answers from this report alone.  The only thing that it does to the session is
to put a report that was not there into the cache.

`Tool.course` gives this course of a call without the steps on the way.

Main result:

- Theorem `Tool.run_call`: every call has the result of its course and leaves the session that its
  course leaves.
-/

namespace BinaryStrings.Server

/-! ## Inquiries -/

/-- A file whose report is asked for, how it is opened, and the answer from its report. -/
structure Inquiry where
  target : String
  mode : Option String
  minLength : Option GivenNumber
  answer : Report → Except CallError Json

namespace Inquiry

/-- What the report depends on. -/
def key (host : Host) (session : Session) (inquiry : Inquiry) : ReportKey :=
  keyFor host session inquiry.target inquiry.mode inquiry.minLength

/-- The report when it is made anew. -/
def fresh (host : Host) (session : Session) (inquiry : Inquiry) : Except CallError Report :=
  let key := inquiry.key host session
  (freshReport host inquiry.target key.mode key.rawBase key.minLength).2

/-- The report, from the cache if it is there. -/
def report (host : Host) (session : Session) (inquiry : Inquiry) : Except CallError Report :=
  match session.cache.get? (inquiry.key host session) with
  | some cached => .ok cached.report
  | none => inquiry.fresh host session

/-- The session with a report in its cache. -/
def stored (host : Host) (session : Session) (inquiry : Inquiry) (report : Report) : Session :=
  (session.keep (inquiry.key host session) ⟨report, minLengthFor host inquiry.minLength⟩).2

/-- The session behind the inquiry. -/
def after (host : Host) (session : Session) (inquiry : Inquiry) : Session :=
  match session.cache.get? (inquiry.key host session) with
  | some _ => session
  | none =>
    match inquiry.fresh host session with
    | .ok report => inquiry.stored host session report
    | .error _ => session

end Inquiry

/-! ## Courses -/

/-- What a call is once its arguments and its path have been checked. -/
inductive Course where
  | decided (result : Except CallError Json)
  | asks (inquiry : Inquiry)

namespace Course

/-- The result of the call. -/
def result (host : Host) (session : Session) : Course → Except CallError Json
  | decided result => result
  | asks inquiry =>
    match inquiry.report host session with
    | .ok report => inquiry.answer report
    | .error error => .error error

/-- The session that the call leaves. -/
def after (host : Host) (session : Session) : Course → Session
  | decided _ => session
  | asks inquiry => inquiry.after host session

/-- Goes on with a value, or is decided by the refusal. -/
def require {α : Type} (outcome : Except CallError α) (next : α → Course) : Course :=
  match outcome with
  | .ok value => next value
  | .error error => decided (.error error)

end Course

/-- The course of a call that asks for the report of the file at a path. -/
def courseOf (host : Host) (session : Session) (path : Json) (mode : Option String)
    (minLength : Option GivenNumber) (answer : String → Report → Except CallError Json) : Course :=
  .require (targetOf host session path) fun target => .asks ⟨target, mode, minLength, answer target⟩

/-- The course of a call for a page. -/
def Page.course (host : Host) (session : Session)
    (path minLength mode labels limit offset : Json) : Course :=
  .require (Argument.minLength minLength) fun minLength =>
  .require (Argument.mode mode) fun mode =>
  .require (Argument.labels labels) fun labels =>
  .require (Argument.limit limit) fun limit =>
  .require (Argument.offset offset) fun offset =>
  courseOf host session path mode minLength fun target report =>
    .ok (SizeGuard.respond toolName advice
      (page target (report.inSections labels) offset limit)).value

/-- The answer of a search from a report. -/
def Search.answer (characters : Unicode.CharacterNames) (patterns labels : List String)
    (limit : GivenNumber) (caseSensitive : Bool) (target : String) (report : Report) :
    Except CallError Json :=
  match report.select characters (selection patterns labels caseSensitive) with
  | .ok found => .ok (SizeGuard.respond toolName advice (results target found limit)).value
  | .error error => .error (.selection error)

/-- The course of a search. -/
def Search.course (host : Host) (session : Session)
    (patterns path minLength mode labels limit caseSensitive : Json) : Course :=
  .require (Argument.patternCount patterns) fun _ =>
  .require (Argument.patterns patterns) fun patterns =>
  .require (Argument.limit limit) fun limit =>
  .require (Argument.minLength minLength) fun minLength =>
  .require (Argument.mode mode) fun mode =>
  .require (Argument.labels labels) fun labels =>
  courseOf host session path mode minLength
    (answer host.readers.characters patterns labels limit caseSensitive.isTruthy)

/-- The course of a call about an address. -/
def Lookup.course (host : Host) (session : Session) (address path minLength mode : Json) : Course :=
  .require (Argument.address address) fun address =>
  .require (Argument.minLength minLength) fun minLength =>
  .require (Argument.mode mode) fun mode =>
  courseOf host session path mode minLength fun _ report => .ok (answer report address)

/-- The course of a call for a summary. -/
def Summary.course (host : Host) (session : Session) (path minLength mode : Json) : Course :=
  .require (Argument.minLength minLength) fun minLength =>
  .require (Argument.mode mode) fun mode =>
  courseOf host session path mode minLength fun target report => .ok (summary target report)

/-- The course of a call about a format, which asks for no report. -/
def Format.course (host : Host) (session : Session) (path : Json) : Course :=
  .require (targetOf host session path) fun target =>
  .require (detect host target).2 fun found =>
  .decided (.ok (SizeGuard.respond toolName none found).value)

namespace Tool

/-- The course of a call with values for all parameters. -/
def courseWith (host : Host) (session : Session) : Tool → List Json → Course
  | page, [path, minLength, mode, labels, limit, offset] =>
    Page.course host session path minLength mode labels limit offset
  | search, [patterns, path, minLength, mode, labels, limit, caseSensitive] =>
    Search.course host session patterns path minLength mode labels limit caseSensitive
  | lookup, [address, path, minLength, mode] =>
    Lookup.course host session address path minLength mode
  | summary, [path, minLength, mode] => Summary.course host session path minLength mode
  | format, [path] => Format.course host session path
  | _, _ => .decided (.ok .null)

/-- The course of a call with arguments by name. -/
def course (host : Host) (session : Session) (tool : Tool) (given : Json.Members) : Course :=
  .require (tool.values given) (tool.courseWith host session)

end Tool

/-! ## Responses of courses -/

/-- Every response of the course has a property. -/
def Course.Yields (P : Json → Prop) : Course → Prop
  | decided result => ∀ response, result = .ok response → P response
  | asks inquiry => ∀ report response, inquiry.answer report = .ok response → P response

namespace Course.Yields

variable {P : Json → Prop}

theorem require {α : Type} {outcome : Except CallError α} {next : α → Course}
    (hnext : ∀ value, outcome = .ok value → Yields P (next value)) :
    Yields P (.require outcome next) := by
  cases outcome with
  | error error => exact fun _ h => by cases h
  | ok value => exact hnext value rfl

theorem courseOf {host : Host} {session : Session} {path : Json} {mode : Option String}
    {minLength : Option GivenNumber} {answer : String → Report → Except CallError Json}
    (hanswer : ∀ target report response, answer target report = .ok response → P response) :
    Yields P (courseOf host session path mode minLength answer) :=
  require fun target _ => hanswer target

theorem of_result {course : Course} (h : course.Yields P) {host : Host} {session : Session}
    {response : Json} (hresult : course.result host session = .ok response) : P response := by
  cases course with
  | decided result => exact h response hresult
  | asks inquiry =>
    simp only [result] at hresult
    split at hresult
    · exact h _ _ hresult
    · cases hresult

end Course.Yields

/-! ## Calls take their courses -/

/-- From every progress a call has the result of a course and leaves its session. -/
def Takes (host : Host) (call : Call Json) (course : Session → Course) : Prop :=
  ∀ progress : Progress,
    (call.runFrom progress).1 = (course progress.session).result host progress.session ∧
      (call.runFrom progress).2.session = (course progress.session).after host progress.session

namespace Takes

variable {α : Type} {host : Host} {call : Call Json} {course : Session → Course}

/-- A call that leaves the session alone and goes on with a value that does not depend on it. -/
theorem tell_bind {next : Unit → Call Json} (message : String)
    (hnext : Takes host (next ()) course) : Takes host (Call.tell message >>= next) course :=
  fun progress => hnext { progress with notes := progress.notes ++ [⟨.info, message⟩] }

theorem require_bind {outcome : Except CallError α} {next : α → Call Json}
    {courses : Session → α → Course}
    (hnext : ∀ value, outcome = .ok value →
      Takes host (next value) fun session => courses session value) :
    Takes host (Call.require outcome >>= next) fun session => .require outcome (courses session) := by
  cases outcome with
  | error error => exact fun _ => ⟨rfl, rfl⟩
  | ok value => exact hnext value rfl

/-- What is required may depend on the session. -/
theorem session_require_bind {outcome : Session → Except CallError α} {next : α → Call Json}
    {courses : Session → α → Course}
    (hnext : ∀ value, Takes host (next value) fun session => courses session value) :
    Takes host (Call.session >>= fun session => Call.require (outcome session) >>= next)
      fun session => .require (outcome session) (courses session) :=
  fun progress => require_bind (fun value _ => hnext value) progress

theorem logged_bind {outcome : List Log.Line × Except CallError α} {next : α → Call Json}
    {courses : Session → α → Course}
    (hnext : ∀ value, outcome.2 = .ok value →
      Takes host (next value) fun session => courses session value) :
    Takes host (Call.logged outcome >>= next) fun session => .require outcome.2 (courses session) :=
  fun progress => require_bind hnext { progress with log := progress.log ++ outcome.1 }

/-- A call that leaves the session alone is decided by what it returns. -/
theorem of_keeps {result : Except CallError Json} (hkeeps : call.Keeps)
    (hresult : ∀ progress, (call.runFrom progress).1 = result) :
    Takes host call fun _ => .decided result :=
  fun progress => ⟨hresult progress, hkeeps progress⟩

end Takes

/-- What a call responds with that the size guard does not give up on. -/
theorem Call.runFrom_respond {value : Json} (hkept : ¬ SizeGuard.GivesUp value) (tool : String)
    (advice : Option String) (progress : Progress) :
    ((Call.respond tool advice value).runFrom progress).1 =
      .ok (SizeGuard.respond tool advice value).value := by
  rw [← SizeGuard.guarded_of_not_givesUp hkept]
  rfl

theorem Call.runFrom_session_bind {α : Type} (progress : Progress) (next : Session → Call α) :
    (Call.session >>= next).runFrom progress = (next progress.session).runFrom progress :=
  rfl

/-- What asking for a report returns and leaves. -/
theorem runFrom_reportOf (host : Host) (inquiry : Inquiry) (progress : Progress) :
    ((reportOf host inquiry.target inquiry.mode inquiry.minLength).runFrom progress).1 =
        inquiry.report host progress.session ∧
      ((reportOf host inquiry.target inquiry.mode inquiry.minLength).runFrom progress).2.session =
        inquiry.after host progress.session := by
  unfold reportOf
  rw [Call.runFrom_session_bind]
  unfold Inquiry.report Inquiry.after Inquiry.stored Inquiry.fresh Inquiry.key
  dsimp only
  cases progress.session.cache.get?
      (keyFor host progress.session inquiry.target inquiry.mode inquiry.minLength) with
  | some cached => exact ⟨rfl, rfl⟩
  | none =>
    rcases freshReport host inquiry.target
        (keyFor host progress.session inquiry.target inquiry.mode inquiry.minLength).mode
        (keyFor host progress.session inquiry.target inquiry.mode inquiry.minLength).rawBase
        (keyFor host progress.session inquiry.target inquiry.mode inquiry.minLength).minLength with
      ⟨lines, error | report⟩
    · exact ⟨rfl, rfl⟩
    · exact ⟨rfl, rfl⟩

namespace Takes

variable {host : Host} {path : Json} {mode : Option String} {minLength : Option GivenNumber}
  {answer : String → Report → Except CallError Json}

/-- A call that goes on from a report to an answer, and leaves the session alone in doing so. -/
theorem reportFor_bind {next : String × Report → Call Json} (hkeeps : ∀ found, (next found).Keeps)
    (hanswer : ∀ target report progress,
      ((next (target, report)).runFrom progress).1 = answer target report) :
    Takes host (reportFor host path mode minLength >>= next) fun session =>
      courseOf host session path mode minLength answer := by
  intro progress
  have hreport : ∀ target, Takes host
      ((reportOf host target mode minLength >>= fun report => pure (target, report)) >>= next)
      fun _ => .asks ⟨target, mode, minLength, answer target⟩ := by
    intro target progress
    obtain ⟨hresult, hafter⟩ := runFrom_reportOf host ⟨target, mode, minLength, answer target⟩ progress
    rw [bind_assoc, Call.runFrom_bind]
    dsimp only [Course.result, Course.after] at hresult hafter ⊢
    rw [← hresult, ← hafter]
    rcases (reportOf host target mode minLength).runFrom progress with ⟨error | report, behind⟩
    · exact ⟨rfl, rfl⟩
    · exact ⟨hanswer target report behind, hkeeps (target, report) behind⟩
  have hassoc : reportFor host path mode minLength >>= next =
      Call.session >>= fun session => Call.require (targetOf host session path) >>= fun target =>
        (reportOf host target mode minLength >>= fun report => pure (target, report)) >>= next := by
    simp only [reportFor, bind_assoc]
  rw [hassoc]
  exact session_require_bind hreport progress

end Takes

open Takes in
theorem Page.takes (host : Host) (path minLength mode labels limit offset : Json) :
    Takes host (Page.call host path minLength mode labels limit offset) fun session =>
      Page.course host session path minLength mode labels limit offset := by
  unfold Page.call Page.course
  refine tell_bind _ ?_
  refine require_bind fun minLength _ => ?_
  refine require_bind fun mode _ => ?_
  refine require_bind fun labels _ => ?_
  refine require_bind fun limit _ => ?_
  refine require_bind fun offset _ => ?_
  exact reportFor_bind (fun _ => Call.keeps_respond _ _ _) fun _ _ _ =>
    Call.runFrom_respond (not_givesUp_page _ _ _ _) _ _ _

open Takes in
theorem Search.takes (host : Host)
    (patterns path minLength mode labels limit caseSensitive : Json) :
    Takes host (Search.call host patterns path minLength mode labels limit caseSensitive)
      fun session =>
        Search.course host session patterns path minLength mode labels limit caseSensitive := by
  unfold Search.call Search.course
  refine require_bind fun count _ => ?_
  refine tell_bind _ ?_
  refine require_bind fun patterns _ => ?_
  refine require_bind fun limit _ => ?_
  refine require_bind fun minLength _ => ?_
  refine require_bind fun mode _ => ?_
  refine require_bind fun labels _ => ?_
  refine reportFor_bind
    (fun _ => (Call.keeps_require _).bind fun _ => Call.keeps_respond _ _ _) fun target report progress => ?_
  unfold answer
  dsimp only
  cases report.select host.readers.characters (selection patterns labels caseSensitive.isTruthy) with
  | error error => rfl
  | ok found => exact Call.runFrom_respond (not_givesUp_results _ _ _) _ _ _

open Takes in
theorem Lookup.takes (host : Host) (address path minLength mode : Json) :
    Takes host (Lookup.call host address path minLength mode) fun session =>
      Lookup.course host session address path minLength mode := by
  unfold Lookup.call Lookup.course
  refine require_bind fun address _ => ?_
  refine require_bind fun minLength _ => ?_
  refine require_bind fun mode _ => ?_
  refine tell_bind _ ?_
  exact reportFor_bind (fun _ => Call.keeps_pure _) fun _ _ _ => rfl

open Takes in
theorem Summary.takes (host : Host) (path minLength mode : Json) :
    Takes host (Summary.call host path minLength mode) fun session =>
      Summary.course host session path minLength mode := by
  unfold Summary.call Summary.course
  refine tell_bind _ ?_
  refine require_bind fun minLength _ => ?_
  refine require_bind fun mode _ => ?_
  exact reportFor_bind (fun _ => Call.keeps_pure _) fun _ _ _ => rfl

open Takes in
theorem Format.takes (host : Host) (path : Json) :
    Takes host (Format.call host path) fun session => Format.course host session path := by
  unfold Format.call Format.course
  refine tell_bind _ ?_
  refine session_require_bind fun target => ?_
  refine logged_bind fun found hfound => ?_
  exact of_keeps (Call.keeps_respond _ _ _)
    (Call.runFrom_respond (not_givesUp_of_detect hfound) _ _)

namespace Tool

theorem takes_courseWith (host : Host) (tool : Tool) (values : List Json) :
    Takes host (tool.callWith host values) fun session => tool.courseWith host session values := by
  unfold callWith
  split
  · exact Page.takes host _ _ _ _ _ _
  · exact Search.takes host _ _ _ _ _ _ _
  · exact Lookup.takes host _ _ _ _
  · exact Summary.takes host _ _ _
  · exact Format.takes host _
  · rename_i hpage hsearch hlookup hsummary hformat
    unfold courseWith
    split
    · exact (hpage _ _ _ _ _ _ rfl rfl).elim
    · exact (hsearch _ _ _ _ _ _ _ rfl rfl).elim
    · exact (hlookup _ _ _ _ rfl rfl).elim
    · exact (hsummary _ _ _ rfl rfl).elim
    · exact (hformat _ rfl rfl).elim
    · exact Takes.of_keeps (Call.keeps_pure _) fun _ => rfl

/-- Every call has the result of its course and leaves the session that its course leaves. -/
theorem run_call (host : Host) (session : Session) (tool : Tool) (given : Json.Members) :
    (Call.run session (tool.call host given)).1 =
        (tool.course host session given).result host session ∧
      (Call.run session (tool.call host given)).2.session =
        (tool.course host session given).after host session :=
  Takes.require_bind (fun values _ => takes_courseWith host tool values) ⟨session, [], []⟩

end Tool

end BinaryStrings.Server

import BinaryStrings.PlainReader
import BinaryStrings.Proofs.Outcome
import BinaryStrings.Proofs.Server.Sandbox

/-!
# The sandbox isolates

What the server answers to any calls, one after another, does not depend on files outside the
allowed paths, and a path that leads outside them is refused by every tool.

A call uses its host for nothing but the file of the path that it gives, and only after this path
has been checked; `Guarded` says so by the shape of the call.  Both results follow from the shape:
two alike hosts answer alike, and leave sessions that differ from the old one in the cache only.

Main results:

- Theorem `Tool.callWith_guarded`: the calls of every tool are guarded.
- Theorem `Tool.answers_eq`: alike hosts answer any calls alike.
- Theorem `Tool.isolates`: both, with what exactly gets past the check.
-/

namespace BinaryStrings.Server

/-! ## Calls step by step -/

namespace Call

variable {α β : Type}

/-- What a call leaves behind that goes on from some progress. -/
def runFrom (progress : Progress) (call : Call α) : Except CallError α × Progress :=
  StateT.run (ExceptT.run call) progress

/-- A call goes on with the value of its first part, or ends with its error. -/
theorem runFrom_bind (progress : Progress) (call : Call α) (next : α → Call β) :
    runFrom progress (call >>= next) =
      match runFrom progress call with
      | (.ok value, after) => runFrom after (next value)
      | (.error error, after) => (.error error, after) := by
  unfold runFrom
  rw [ExceptT.run_bind, StateT.run_bind]
  change StateT.run _ (StateT.run (ExceptT.run call) progress).2 = _
  cases StateT.run (ExceptT.run call) progress with
  | mk result after => cases result <;> rfl

/-- A refusal ends a call. -/
theorem runFrom_require_error_bind (progress : Progress) (error : CallError)
    (next : α → Call β) :
    (require (.error error) >>= next).runFrom progress = (.error error, progress) :=
  rfl

/-- The call leaves the session as it is. -/
def Keeps (call : Call α) : Prop :=
  ∀ progress, (runFrom progress call).2.session = progress.session

/-- Notes do not change the session. -/
theorem keeps_send (notes : List Note) : Keeps (send notes) :=
  fun _ => rfl

/-- Nor does a message. -/
theorem keeps_tell (message : String) : Keeps (tell message) :=
  fun _ => rfl

/-- Nor do log lines. -/
theorem keeps_log (lines : List Log.Line) : Keeps (log lines) :=
  fun _ => rfl

/-- Nor does a value. -/
theorem keeps_pure (value : α) : Keeps (pure value : Call α) :=
  fun _ => rfl

/-- Nor does a refusal. -/
theorem keeps_require (outcome : Except CallError α) : Keeps (require outcome) := by
  intro progress
  cases outcome <;> rfl

/-- Two parts of a call that leave the session leave it together. -/
theorem Keeps.bind {call : Call α} {next : α → Call β} (hcall : Keeps call)
    (hnext : ∀ value, Keeps (next value)) : Keeps (call >>= next) := by
  intro progress
  have hsession := hcall progress
  rw [runFrom_bind]
  cases hrun : runFrom progress call with
  | mk result after =>
    rw [hrun] at hsession
    cases result with
    | error error => exact hsession
    | ok value => exact (hnext value after).trans hsession

/-- A response does not change the session. -/
theorem keeps_respond (tool : String) (advice : Option String) (value : Json) :
    Keeps (respond tool advice value) :=
  (keeps_send _).bind fun _ => (keeps_log _).bind fun _ => keeps_pure _

/-- Nor does a value with log lines. -/
theorem keeps_logged (outcome : List Log.Line × Except CallError α) : Keeps (logged outcome) :=
  (keeps_log _).bind fun _ => keeps_require _

end Call

/-! ## Calls behind the check -/

/-- The call uses its host for nothing but its readers and the file at a path that it gives, behind the
check. -/
inductive Guarded {α : Type} (path : Json) : (Host → Call α) → Prop where
  | bind {β : Type} {call : Call β} {next : β → Host → Call α} (hcall : Call.Keeps call)
      (hnext : ∀ value, Guarded path (next value)) :
      Guarded path fun host => call >>= fun value => next value host
  | report {mode : Option String} {minLength : Option GivenNumber}
      {next : Host → String × Report → Call α}
      (hreaders : ∀ host other, host.readers = other.readers → next host = next other)
      (hnext : ∀ host found, Call.Keeps (next host found)) :
      Guarded path fun host => reportFor host path mode minLength >>= next host
  | detect {next : Json → Call α} (hnext : ∀ found, Call.Keeps (next found)) :
      Guarded path fun host => Call.session >>= fun session =>
        Call.require (targetOf host session path) >>= fun target =>
          Call.logged (Format.detect host target) >>= next

open Call in
/-- A call for a page is behind the check. -/
theorem Page.guarded (path minLength mode labels limit offset : Json) :
    Guarded path fun host => Page.call host path minLength mode labels limit offset := by
  unfold Page.call
  refine .bind (keeps_tell _) fun _ => ?_
  refine .bind (keeps_require _) fun minLength => ?_
  refine .bind (keeps_require _) fun mode => ?_
  refine .bind (keeps_require _) fun labels => ?_
  refine .bind (keeps_require _) fun limit => ?_
  refine .bind (keeps_require _) fun offset => ?_
  exact .report (fun _ _ _ => rfl) fun _ _ => keeps_respond _ _ _

open Call in
/-- So is a search. -/
theorem Search.guarded (patterns path minLength mode labels limit caseSensitive : Json) :
    Guarded path fun host =>
      Search.call host patterns path minLength mode labels limit caseSensitive := by
  unfold Search.call
  refine .bind (keeps_require _) fun count => ?_
  refine .bind (keeps_tell _) fun _ => ?_
  refine .bind (keeps_require _) fun patterns => ?_
  refine .bind (keeps_require _) fun limit => ?_
  refine .bind (keeps_require _) fun minLength => ?_
  refine .bind (keeps_require _) fun mode => ?_
  refine .bind (keeps_require _) fun labels => ?_
  refine .report (fun host other hreaders => ?_)
    fun _ _ => (keeps_require _).bind fun _ => keeps_respond _ _ _
  simp only [hreaders]

open Call in
/-- So is a call about an address. -/
theorem Lookup.guarded (address path minLength mode : Json) :
    Guarded path fun host => Lookup.call host address path minLength mode := by
  unfold Lookup.call
  refine .bind (keeps_require _) fun address => ?_
  refine .bind (keeps_require _) fun minLength => ?_
  refine .bind (keeps_require _) fun mode => ?_
  refine .bind (keeps_tell _) fun _ => ?_
  exact .report (fun _ _ _ => rfl) fun _ _ => keeps_pure _

open Call in
/-- So is a call for a summary. -/
theorem Summary.guarded (path minLength mode : Json) :
    Guarded path fun host => Summary.call host path minLength mode := by
  unfold Summary.call
  refine .bind (keeps_tell _) fun _ => ?_
  refine .bind (keeps_require _) fun minLength => ?_
  refine .bind (keeps_require _) fun mode => ?_
  exact .report (fun _ _ _ => rfl) fun _ _ => keeps_pure _

open Call in
/-- So is a call about a format. -/
theorem Format.guarded (path : Json) : Guarded path fun host => Format.call host path := by
  unfold Format.call
  refine .bind (keeps_tell _) fun _ => ?_
  exact .detect fun _ => keeps_respond _ _ _

/-! ## Alike hosts answer alike -/

/-- The session of a server that loaded a file and restricts paths to some. -/
structure Session.IsOf (file : Option String) (roots : List String) (session : Session) :
    Prop where
  file_eq : session.file = file
  allowed_eq : session.allowed = some roots

/-- Two calls go the same way in every session of a server, and leave a session of this server. -/
def Agree {α : Type} (file : Option String) (roots : List String) (first second : Call α) : Prop :=
  ∀ progress : Progress, progress.session.IsOf file roots →
    first.runFrom progress = second.runFrom progress ∧
      (first.runFrom progress).2.session.IsOf file roots

namespace Agree

variable {α β : Type} {file : Option String} {roots : List String}

/-- A call that leaves the session agrees with itself. -/
theorem of_keeps {call : Call α} (hcall : call.Keeps) : Agree file roots call call := by
  intro progress hsession
  rw [hcall progress]
  exact ⟨rfl, hsession⟩

/-- A refusal ends both calls. -/
theorem require_error_bind (error : CallError) (next next' : α → Call β) :
    Agree file roots (Call.require (.error error) >>= next)
      (Call.require (.error error) >>= next') := by
  intro progress hsession
  rw [Call.runFrom_require_error_bind, Call.runFrom_require_error_bind]
  exact ⟨rfl, hsession⟩

/-- Calls agree if their parts do. -/
theorem bind {first second : Call α} {next next' : α → Call β} (hfirst : Agree file roots first second)
    (hnext : ∀ value, Agree file roots (next value) (next' value)) :
    Agree file roots (first >>= next) (second >>= next') := by
  intro progress hsession
  obtain ⟨hrun, hafter⟩ := hfirst progress hsession
  rw [Call.runFrom_bind, Call.runFrom_bind, ← hrun]
  cases hresult : first.runFrom progress with
  | mk result after =>
    rw [hresult] at hafter
    cases result with
    | error error => exact ⟨rfl, hafter⟩
    | ok value => exact hnext value after hafter

/-- What is done with the session may depend on it. -/
theorem session_bind {next next' : Session → Call α}
    (hnext : ∀ session, session.IsOf file roots → Agree file roots (next session) (next' session)) :
    Agree file roots (Call.session >>= next) (Call.session >>= next') :=
  fun progress hsession => hnext progress.session hsession progress hsession

/-- A session of this server may be set. -/
theorem setSession {session : Session} (hsession : session.IsOf file roots) :
    Agree file roots (Call.setSession session) (Call.setSession session) :=
  fun _ _ => ⟨rfl, hsession⟩

/-- A report goes into the cache and changes nothing else. -/
theorem reportOf (host : Host) (target : String) (mode : Option String)
    (minLength : Option GivenNumber) : Agree file roots (reportOf host target mode minLength)
      (reportOf host target mode minLength) := by
  unfold Server.reportOf
  refine session_bind fun session hsession => ?_
  dsimp only
  split
  · exact of_keeps ((Call.keeps_log _).bind fun _ => Call.keeps_pure _)
  · refine bind (of_keeps (Call.keeps_logged _)) fun report => ?_
    refine bind (of_keeps (Call.keeps_log _)) fun _ => ?_
    refine bind (setSession ?_) fun _ => of_keeps (Call.keeps_pure _)
    exact ⟨hsession.file_eq, hsession.allowed_eq⟩

end Agree

namespace Alike

variable {α : Type} {file : Option String} {roots : List String} {host other : Host}

/-- What follows the check of a path agrees when it does for a path with the same contents. -/
theorem agree_targetOf (h : Alike file roots host other)
    (hcurrent : host.tree.IsSettled host.tree.current) (path : Json)
    {next next' : String → Call α}
    (hnext : ∀ target, host.tree.isFile target = true →
      host.tree.fileAt? target = other.tree.fileAt? target → Agree file roots (next target) (next' target)) :
    Agree file roots
      (Call.session >>= fun session => Call.require (targetOf host session path) >>= next)
      (Call.session >>= fun session => Call.require (targetOf other session path) >>= next') := by
  refine Agree.session_bind fun session hsession => ?_
  rw [← h.targetOf_eq hcurrent hsession.file_eq hsession.allowed_eq path]
  cases htarget : targetOf host session path with
  | error error => exact Agree.require_error_bind error next next'
  | ok target =>
    have hopened := h.fileAt?_eq_of_targetOf hcurrent hsession.file_eq hsession.allowed_eq htarget
    exact hnext target (isFile_of_targetOf htarget) hopened

/-- The calls behind the check agree on alike hosts. -/
theorem agree_of_guarded (h : Alike file roots host other)
    (hcurrent : host.tree.IsSettled host.tree.current) {path : Json} {call : Host → Call α}
    (hcall : Guarded path call) : Agree file roots (call host) (call other) := by
  induction hcall with
  | bind hkeeps _ ih => exact (Agree.of_keeps hkeeps).bind ih
  | @report mode minLength next hreaders hnext =>
    have hreport : Agree file roots (reportFor host path mode minLength)
        (reportFor other path mode minLength) := by
      unfold reportFor
      refine h.agree_targetOf hcurrent path fun target _ hopened => ?_
      rw [← h.reportOf_eq hopened]
      exact (Agree.reportOf host target mode minLength).bind fun _ =>
        Agree.of_keeps (Call.keeps_pure _)
    refine hreport.bind fun found => ?_
    rw [hreaders host other h.readers_eq]
    exact Agree.of_keeps (hnext other found)
  | detect hnext =>
    refine h.agree_targetOf hcurrent path fun target hisFile hopened => ?_
    rw [← h.detect_eq hisFile hopened]
    exact (Agree.of_keeps (Call.keeps_logged _)).bind fun found => Agree.of_keeps (hnext found)

end Alike

/-! ## Refused calls -/

/-- In a session the call is refused on the host, with the given error or with one that it is
refused with on every host, and the session stays as it is. -/
def IsRefused {α : Type} (error : CallError) (host : Host) (session : Session)
    (call : Host → Call α) : Prop :=
  ∀ progress : Progress, progress.session = session →
    ∃ found, ((call host).runFrom progress).1 = .error found ∧
      ((call host).runFrom progress).2.session = session ∧
        (found = error ∨ ∀ other, ((call other).runFrom progress).1 = .error found)

/-- A path that is refused ends what would follow the check. -/
theorem runFrom_of_targetOf_eq_error {α : Type} {host : Host} {path : Json} {error : CallError}
    {progress : Progress} (htarget : targetOf host progress.session path = .error error)
    (next : String → Call α) :
    (Call.session >>= fun session =>
      Call.require (targetOf host session path) >>= next).runFrom progress =
        (.error error, progress) := by
  change (Call.require (targetOf host progress.session path) >>= next).runFrom progress = _
  rw [htarget, Call.runFrom_require_error_bind]

/-- The calls behind the check are refused when their path is. -/
theorem isRefused_of_guarded {α : Type} {host : Host} {session : Session} {path : Json}
    {error : CallError} {call : Host → Call α} (hcall : Guarded path call)
    (htarget : targetOf host session path = .error error) :
    IsRefused error host session call := by
  induction hcall with
  | @bind β before next hkeeps _ ih =>
    intro progress hsession
    have hafter := hkeeps progress
    simp only [Call.runFrom_bind]
    cases hrun : before.runFrom progress with
    | mk result after =>
      rw [hrun, hsession] at hafter
      cases result with
      | error found => exact ⟨found, rfl, hafter, .inr fun _ => rfl⟩
      | ok value => exact ih value after hafter
  | @report mode minLength next hreaders hnext =>
    intro progress hsession
    subst hsession
    have hreport : (reportFor host path mode minLength).runFrom progress =
        (.error error, progress) := by
      unfold reportFor
      exact runFrom_of_targetOf_eq_error htarget _
    rw [Call.runFrom_bind, hreport]
    exact ⟨error, rfl, rfl, .inl rfl⟩
  | detect hnext =>
    intro progress hsession
    subst hsession
    rw [runFrom_of_targetOf_eq_error htarget]
    exact ⟨error, rfl, rfl, .inl rfl⟩

/-! ## Tools -/

namespace Tool

/-- The path that a call gives, null when it gives none. -/
def pathOf (given : Json.Members) : Json :=
  (given.get? Parameter.path.name).getD .null

/-- The path that a tool takes is the one that is given. -/
theorem valueOf_path {tool : Tool} {given : Json.Members} {value : Json}
    (hvalue : tool.valueOf given .path = .ok value) : value = pathOf given := by
  unfold valueOf at hvalue
  unfold pathOf
  split at hvalue
  · rename_i hgiven
    cases hvalue
    rw [hgiven]
    rfl
  · rename_i hnone habsent
    cases hvalue
    cases habsent
    rw [hnone]
    rfl
  · cases hvalue

/-- The calls of every tool are behind the check of the path that they give. -/
theorem callWith_guarded {tool : Tool} {given : Json.Members} {values : List Json}
    (hvalues : tool.values given = .ok values) :
    Guarded (pathOf given) fun host => tool.callWith host values := by
  unfold Tool.values at hvalues
  split at hvalues
  · cases hvalues
  · have h := forall₂_of_mapM_eq_ok hvalues
    cases tool with
    | page =>
      obtain _ | ⟨hpath, _ | ⟨-, _ | ⟨-, _ | ⟨-, _ | ⟨-, _ | ⟨-, _ | _⟩⟩⟩⟩⟩⟩ := h
      rw [← valueOf_path hpath]
      exact Page.guarded _ _ _ _ _ _
    | search =>
      obtain _ | ⟨-, _ | ⟨hpath, _ | ⟨-, _ | ⟨-, _ | ⟨-, _ | ⟨-, _ | ⟨-, _ | _⟩⟩⟩⟩⟩⟩⟩ := h
      rw [← valueOf_path hpath]
      exact Search.guarded _ _ _ _ _ _ _
    | lookup =>
      obtain _ | ⟨-, _ | ⟨hpath, _ | ⟨-, _ | ⟨-, _ | _⟩⟩⟩⟩ := h
      rw [← valueOf_path hpath]
      exact Lookup.guarded _ _ _ _
    | summary =>
      obtain _ | ⟨hpath, _ | ⟨-, _ | ⟨-, _ | _⟩⟩⟩ := h
      rw [← valueOf_path hpath]
      exact Summary.guarded _ _ _
    | format =>
      obtain _ | ⟨hpath, _ | _⟩ := h
      rw [← valueOf_path hpath]
      exact Format.guarded _

/-! ## Calls one after another -/

/-- What a client sees of a call: its result, the notes sent to it, and the lines logged. -/
structure Answer where
  result : Except CallError Json
  notes : List Note
  log : List Log.Line

/-- The answers to calls one after another, each in the session that the one before it left. -/
def answers (host : Host) (session : Session) : List (Tool × Json.Members) → List Answer
  | [] => []
  | (tool, given) :: rest =>
    let (result, progress) := Call.run session (tool.call host given)
    ⟨result, progress.notes, progress.log⟩ :: answers host progress.session rest

/-- A call of any tool agrees on alike hosts. -/
theorem call_agree {file : Option String} {roots : List String} {host other : Host}
    (h : Alike file roots host other) (hcurrent : host.tree.IsSettled host.tree.current)
    (tool : Tool) (given : Json.Members) :
    Agree file roots (tool.call host given) (tool.call other given) := by
  unfold Tool.call
  cases hvalues : tool.values given with
  | error error => exact Agree.require_error_bind error _ _
  | ok values => exact h.agree_of_guarded hcurrent (callWith_guarded hvalues)

/-- Alike hosts answer any calls alike. -/
theorem answers_eq {file : Option String} {roots : List String} {host other : Host}
    (h : Alike file roots host other) (hcurrent : host.tree.IsSettled host.tree.current)
    {session : Session} (hsession : session.IsOf file roots)
    (calls : List (Tool × Json.Members)) :
    answers host session calls = answers other session calls := by
  induction calls generalizing session with
  | nil => rfl
  | cons call rest ih =>
    obtain ⟨tool, given⟩ := call
    obtain ⟨hrun, hafter⟩ := call_agree h hcurrent tool given ⟨session, [], []⟩ hsession
    have hanswer : Call.run session (tool.call host given) =
        Call.run session (tool.call other given) := hrun
    have hrest := ih hafter
    simp only [answers, ← hanswer]
    rw [List.cons.injEq]
    exact ⟨rfl, hrest⟩

/-- A call whose path is refused is refused. -/
theorem call_isRefused {host : Host} {session : Session} {error : CallError} (tool : Tool)
    {given : Json.Members} (htarget : targetOf host session (pathOf given) = .error error) :
    IsRefused error host session fun host => tool.call host given := by
  unfold Tool.call
  cases hvalues : tool.values given with
  | error found =>
    intro progress hsession
    simp only [Call.runFrom_require_error_bind]
    exact ⟨found, rfl, hsession, .inr fun _ => rfl⟩
  | ok values => exact isRefused_of_guarded (callWith_guarded hvalues) htarget

/-- The sandbox isolates.  A server with a list of allowed paths, whatever its cache holds, answers
any calls on two hosts alike that have the same readers, directories, links, loaded file and files below the
allowed paths.  A path that a call gives and that leads to some place gets past the check exactly
when this place starts with the real place of an allowed path; otherwise every tool refuses the
call, for its path or for what is wrong with it on every host, and leaves the session as it is.

A text with a null character is no path, and an allowed path with one ends the check: the paths behind
it are not looked up.  When all have real paths, those that are looked up are the allowed ones.  The
system reports the current directory without links, so it is settled. -/
theorem isolates (host other : Host) (session : Session) (roots : List String)
    (hallowed : session.allowed = some roots)
    (hcurrent : host.tree.IsSettled host.tree.current)
    (halike : Alike session.file roots host other) :
    (∀ calls, answers host session calls = answers other session calls) ∧
      ∀ (path : Json) (text : String) (place : Place), path ≠ .null →
        chosenPath session path = .ok (.str text) → host.tree.LeadsTo text place →
          host.tree.realPlace text = place ∧
          (checkedPath host session (.str text) = .ok () ↔ host.tree.hasRealPath text = true ∧
            ∃ root ∈ Sandbox.lookedUp host.tree roots, host.tree.realPlace root <+: place) ∧
          ((∀ root ∈ roots, host.tree.hasRealPath root = true) →
            Sandbox.lookedUp host.tree roots = roots) ∧
          (checkedPath host session (.str text) ≠ .ok () →
            ∀ (tool : Tool) (given : Json.Members), pathOf given = path →
              ∃ error, (Call.run session (tool.call host given)).1 = .error error ∧
                (Call.run session (tool.call host given)).2.session = session ∧
                  (IsRefusal host roots text error ∨
                    ∀ anyHost, (Call.run session (tool.call anyHost given)).1 = .error error)) := by
  constructor
  · exact answers_eq halike hcurrent ⟨rfl, hallowed⟩
  · intro path text place hpath hchosen hleads
    refine ⟨FileTree.realPlace_eq_of_leadsTo hleads, ?_, Sandbox.lookedUp_eq_self, ?_⟩
    · rw [checkedPath_eq_ok_iff, hallowed, ← Sandbox.check_realPath_eq_ok_iff hcurrent hleads]
      simp
    · rintro hchecked tool given rfl
      obtain ⟨error, htarget, hrefusal⟩ := targetOf_of_not_checked hallowed hpath hchosen hchecked
      obtain ⟨found, hfound, hsession, hcause⟩ :=
        call_isRefused tool htarget ⟨session, [], []⟩ rfl
      refine ⟨found, hfound, hsession, hcause.imp_left ?_⟩
      rintro rfl
      exact hrefusal

/-- A link below an allowed path leads out of it, to a key that is another one on another host. -/
theorem isolates_behind_link :
    let tree : FileTree := ⟨["srv"], [(["srv"], .directory), (["srv", "in"], .directory),
      (["srv", "in", "tool"], .file [0x74]), (["srv", "in", "up"], .link "../../etc"),
      (["etc"], .directory), (["etc", "key"], .file [0x6b])]⟩
    let host : Host := ⟨tree, .all, .usual⟩
    let other : Host := { host with tree := tree.putNode ["etc", "key"] (.file [0x7a]) }
    let session : Session := { Session.initial with file := some "in/tool", allowed := some ["in"] }
    let path : Json := .str "in/up/key"
    session.allowed = some ["in"] ∧ tree.IsSettled tree.current ∧
      Alike session.file ["in"] host other ∧ tree.LeadsTo "in/up/key" ["etc", "key"] ∧
        (∀ calls, answers host session calls = answers other session calls) ∧
          ∀ tool : Tool, ∃ error,
            (Call.run session (tool.call host [("file_path", path)])).1 = .error error := by
  intro tree host other session path
  have hcurrent : tree.IsSettled tree.current := .of_directory (by decide) rfl
  have halike : Alike session.file ["in"] host other := by
    refine Alike.putNode_file [0x7a] (by simp) rfl ?_ ?_
    · decide +kernel
    · intro loaded hloaded
      rw [← Option.some.inj hloaded]
      decide +kernel
  have hleads : tree.LeadsTo "in/up/key" ["etc", "key"] := by
    obtain ⟨place, hplace⟩ := FileTree.exists_leadsTo_iff.2
      (show (FileTree.joinPath tree tree.deepest [] .here "in/up/key").free = true by
        decide +kernel)
    have hreal : tree.realPlace "in/up/key" = ["etc", "key"] := by decide +kernel
    rw [← hreal, FileTree.realPlace_eq_of_leadsTo hplace]
    exact hplace
  have hisolates := isolates host other session ["in"] rfl hcurrent halike
  refine ⟨rfl, hcurrent, halike, hleads, hisolates.1, fun tool => ?_⟩
  obtain ⟨-, hpasses, -, hrefused⟩ :=
    hisolates.2 path "in/up/key" ["etc", "key"] (by simp [path]) rfl hleads
  have houtside : ¬ ∃ root ∈ Sandbox.lookedUp tree ["in"],
      tree.realPlace root <+: ["etc", "key"] := by decide +kernel
  obtain ⟨error, herror, _⟩ :=
    hrefused (fun hok => houtside (hpasses.1 hok).2) tool [("file_path", path)] rfl
  exact ⟨error, herror⟩

end Tool

end BinaryStrings.Server

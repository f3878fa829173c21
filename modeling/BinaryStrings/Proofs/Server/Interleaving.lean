import Mathlib.Logic.Function.Iterate
import BinaryStrings.PlainReader
import BinaryStrings.Proofs.Server.CachedReports

/-!
# Calls at the same time

Several calls may be answered at the same time.  A call looks its report up, extracts it when it is
not in the cache, and stores it; between two of these steps other calls may do any of theirs, so that
two calls may both miss and both store, and a report that was just stored may be gone again.

A *moment* is the session with the stages that the calls have reached, and a *schedule* says which
call goes on when.  The invariant `Moment.IsSound` holds from the start: the cached reports are fresh,
the cache is not too large, and every stage is one of the call's own course.

Main results:

- Theorem `Stage.step_uninterrupted`: the steps of a call make up the call.
- Theorem `Moment.IsSound.step`: a step of any call keeps the invariant.
- Theorem `Moment.run_isTransparent`: no schedule changes what a call answers.
-/

namespace BinaryStrings.Server

/-! ## Stages -/

/-- How far a call has come. -/
inductive Stage where
  | waiting (tool : Tool) (given : Json.Members)
  | lookingUp (inquiry : Inquiry)
  | extracting (inquiry : Inquiry)
  | storing (inquiry : Inquiry) (report : Report)
  | ended (result : Except CallError Json)

namespace Stage

/-- The stage of a call whose arguments and path have just been checked. -/
def ofCourse : Course → Stage
  | .decided result => ended result
  | .asks inquiry => lookingUp inquiry

/-- One step of a call, and the session that it leaves. -/
def step (host : Host) (session : Session) : Stage → Session × Stage
  | waiting tool given => (session, ofCourse (tool.course host session given))
  | lookingUp inquiry =>
    match session.cache.get? (inquiry.key host session) with
    | some cached => (session, ended (inquiry.answer cached.report))
    | none => (session, extracting inquiry)
  | extracting inquiry =>
    match inquiry.fresh host session with
    | .ok report => (session, storing inquiry report)
    | .error error => (session, ended (.error error))
  | storing inquiry report =>
    (inquiry.stored host session report, ended (inquiry.answer report))
  | ended result => (session, ended result)

/-- A call that takes its steps without others in between does what the call does. -/
theorem step_uninterrupted (host : Host) (session : Session) (tool : Tool)
    (given : Json.Members) :
    (fun (reached : Session × Stage) => reached.2.step host reached.1)^[4]
        (session, waiting tool given) =
      ((Call.run session (tool.call host given)).2.session,
        ended (Call.run session (tool.call host given)).1) := by
  obtain ⟨hresult, hafter⟩ := Tool.run_call host session tool given
  rw [hresult, hafter]
  simp only [Function.iterate_succ, Function.iterate_zero, Function.comp_apply, id_eq, step]
  cases tool.course host session given with
  | decided result => rfl
  | asks inquiry =>
    simp only [ofCourse, Course.result, Course.after, Inquiry.report, Inquiry.after]
    cases session.cache.get? (inquiry.key host session) with
    | some cached => rfl
    | none =>
      dsimp only
      cases inquiry.fresh host session with
      | error error => rfl
      | ok report => rfl

/-- The most steps that are left. -/
def stepsLeft : Stage → Nat
  | waiting _ _ => 4
  | lookingUp _ => 3
  | extracting _ => 2
  | storing _ _ => 1
  | ended _ => 0

theorem stepsLeft_step_le (host : Host) (session : Session) (stage : Stage) :
    (stage.step host session).2.stepsLeft ≤ stage.stepsLeft - 1 := by
  cases stage with
  | waiting tool given =>
    simp only [step]
    cases tool.course host session given <;> simp [ofCourse, stepsLeft]
  | lookingUp inquiry =>
    simp only [step]
    split <;> simp [stepsLeft]
  | extracting inquiry =>
    simp only [step]
    split <;> simp [stepsLeft]
  | storing inquiry report => simp [step, stepsLeft]
  | ended result => simp [step, stepsLeft]

theorem eq_ended_of_stepsLeft {stage : Stage} (h : stage.stepsLeft = 0) :
    ∃ result, stage = ended result := by
  cases stage with
  | ended result => exact ⟨result, rfl⟩
  | _ => simp [stepsLeft] at h

end Stage

/-! ## Moments -/

/-- The session and the stages of all calls. -/
structure Moment (ι : Type) where
  session : Session
  stage : ι → Stage

namespace Moment

variable {ι : Type} [DecidableEq ι]

/-- The moment when all calls are waiting. -/
def start (session : Session) (calls : ι → Tool × Json.Members) : Moment ι :=
  ⟨session, fun i => .waiting (calls i).1 (calls i).2⟩

/-- The moment after one step of a call. -/
def step (host : Host) (moment : Moment ι) (i : ι) : Moment ι :=
  let (session, stage) := (moment.stage i).step host moment.session
  ⟨session, Function.update moment.stage i stage⟩

/-- The moment after the steps of a schedule. -/
def run (host : Host) (moment : Moment ι) (schedule : List ι) : Moment ι :=
  schedule.foldl (step host) moment

/-! ## What calls answer alone -/

/-- What a call answers on the server with an empty cache. -/
def alone (host : Host) (server : Session) (call : Tool × Json.Members) : Except CallError Json :=
  (Call.run (server.withCache .empty) (call.1.call host call.2)).1

theorem alone_of_decided {host : Host} {server : Session} {call : Tool × Json.Members}
    {result : Except CallError Json} (h : call.1.course host server call.2 = .decided result) :
    alone host server call = result := by
  unfold alone
  rw [(Tool.run_call host (server.withCache .empty) call.1 call.2).1, Tool.course_withCache, h]
  rfl

theorem alone_of_asks {host : Host} {server : Session} {call : Tool × Json.Members}
    {inquiry : Inquiry} (h : call.1.course host server call.2 = .asks inquiry) :
    alone host server call =
      match inquiry.fresh host server with
      | .ok report => inquiry.answer report
      | .error error => .error error := by
  unfold alone
  rw [(Tool.run_call host (server.withCache .empty) call.1 call.2).1, Tool.course_withCache, h]
  rfl

/-! ## The invariant -/

/-- The report is that of the file of a key, by whatever name the file is read. -/
def IsReportFor (host : Host) (key : ReportKey) (report : Report) : Prop :=
  (∃ name, host.tree.isFile name = true ∧ host.tree.realPath name = key.path) ∧
    ∀ name, host.tree.isFile name = true → host.tree.realPath name = key.path →
      (freshReport host name key.mode key.rawBase key.minLength).2 = .ok report

/-- The stage is one of the course that the call takes on the server. -/
def Fits (host : Host) (server : Session) (call : Tool × Json.Members) : Stage → Prop
  | .waiting tool given => (tool, given) = call
  | .lookingUp inquiry => call.1.course host server call.2 = .asks inquiry
  | .extracting inquiry => call.1.course host server call.2 = .asks inquiry
  | .storing inquiry report =>
    call.1.course host server call.2 = .asks inquiry ∧ inquiry.fresh host server = .ok report
  | .ended result => result = alone host server call

/-- What holds at every moment. -/
structure IsSound (host : Host) (server : Session) (calls : ι → Tool × Json.Members)
    (moment : Moment ι) : Prop where
  /-- Nothing but the cache changes. -/
  session_eq : moment.session = server.withCache moment.session.cache
  keeps : moment.session.Keeps (IsReportFor host)
  size_le : moment.session.cache.size ≤ ReportCache.capacity
  fits : ∀ i, Fits host server (calls i) (moment.stage i)

/-! ## Steps -/

section

variable {host : Host} {server : Session}

/-- The fresh report of an inquiry is right for every name of its file. -/
theorem isReportFor_of_fresh (hcurrent : host.tree.IsSettled host.tree.current)
    {inquiry : Inquiry} (hfile : host.tree.isFile inquiry.target = true) {report : Report}
    (hfresh : inquiry.fresh host server = .ok report) :
    IsReportFor host (inquiry.key host server) report := by
  refine ⟨⟨inquiry.target, hfile, rfl⟩, fun name hname hpath => ?_⟩
  have hopened : host.tree.fileAt? inquiry.target = host.tree.fileAt? name :=
    FileTree.fileAt?_eq_of_realPath_eq hcurrent hfile hname hpath.symm
  exact freshReport_eq_ok hopened rfl rfl hfresh

/-- A cached report is the fresh one. -/
theorem IsReportFor.fresh_eq {inquiry : Inquiry} {report : Report}
    (h : IsReportFor host (inquiry.key host server) report)
    (hfile : host.tree.isFile inquiry.target = true) : inquiry.fresh host server = .ok report :=
  h.2 inquiry.target hfile rfl

variable {calls : ι → Tool × Json.Members} {moment : Moment ι}

omit [DecidableEq ι] in
theorem isSound_start (hserver : server.cache = .empty) :
    IsSound host server calls (start server calls) where
  session_eq := rfl
  keeps := by
    intro entry hentry
    rw [start, hserver] at hentry
    cases hentry
  size_le := by
    rw [start, hserver]
    exact Nat.zero_le _
  fits := fun _ => rfl

/-- A step that leaves the cache alone and brings its call to a stage of its course. -/
theorem IsSound.update (h : IsSound host server calls moment) {i : ι} {stage : Stage}
    (hstage : Fits host server (calls i) stage) :
    IsSound host server calls ⟨moment.session, Function.update moment.stage i stage⟩ where
  session_eq := h.session_eq
  keeps := h.keeps
  size_le := h.size_le
  fits := by
    intro j
    by_cases hj : j = i
    · subst hj
      simpa using hstage
    · simpa [hj] using h.fits j

/-- The result of a call from its fresh report is the one that it has alone. -/
theorem fits_ended_of_fresh {call : Tool × Json.Members} {inquiry : Inquiry}
    (hcourse : call.1.course host server call.2 = .asks inquiry) {report : Report}
    (hfresh : inquiry.fresh host server = .ok report) :
    Fits host server call (.ended (inquiry.answer report)) := by
  rw [Fits, alone_of_asks hcourse, hfresh]

/-- A step of any call keeps the invariant. -/
theorem IsSound.step (hcurrent : host.tree.IsSettled host.tree.current)
    (h : IsSound host server calls moment) (i : ι) :
    IsSound host server calls (moment.step host i) := by
  have hfits := h.fits i
  have hsession := h.session_eq
  unfold Moment.step
  cases hstage : moment.stage i with
  | waiting tool given =>
    rw [hstage] at hfits
    refine h.update ?_
    rw [hsession, Tool.course_withCache]
    cases hcourse : tool.course host server given with
    | decided result =>
      rw [← show (tool, given) = calls i from hfits]
      exact (alone_of_decided hcourse).symm
    | asks inquiry =>
      rw [← show (tool, given) = calls i from hfits]
      exact hcourse
  | lookingUp inquiry =>
    rw [hstage] at hfits
    have hfile := Tool.asksForFile_course host server _ _ inquiry hfits
    have hkey : inquiry.key host moment.session = inquiry.key host server := by
      rw [hsession, Inquiry.key_withCache]
    simp only [Stage.step]
    split
    · rename_i cached hcached
      rw [hkey] at hcached
      have hfresh := (h.keeps.of_get? hcached).fresh_eq hfile
      exact h.update (fits_ended_of_fresh hfits hfresh)
    · exact h.update hfits
  | extracting inquiry =>
    rw [hstage] at hfits
    have hfresh : inquiry.fresh host moment.session = inquiry.fresh host server := by
      rw [hsession, Inquiry.fresh_withCache]
    simp only [Stage.step, hfresh]
    split
    · rename_i report hreport
      exact h.update ⟨hfits, hreport⟩
    · rename_i error herror
      refine h.update ?_
      rw [Fits, alone_of_asks hfits, herror]
  | storing inquiry report =>
    rw [hstage] at hfits
    obtain ⟨hcourse, hfresh⟩ := hfits
    have hfile := Tool.asksForFile_course host server _ _ inquiry hcourse
    have hkey : inquiry.key host moment.session = inquiry.key host server := by
      rw [hsession, Inquiry.key_withCache]
    have hstored : IsSound host server calls
        ⟨inquiry.stored host moment.session report, moment.stage⟩ :=
      { session_eq := by rw [Inquiry.stored_eq_withCache, hsession]; rfl
        keeps := h.keeps |> Inquiry.stored_keeps <| by
          rw [hkey]
          exact isReportFor_of_fresh hcurrent hfile hfresh
        size_le := Inquiry.size_stored_le _ _ _ _
        fits := h.fits }
    exact hstored.update (fits_ended_of_fresh hcourse hfresh)
  | ended result =>
    rw [hstage] at hfits
    exact h.update hfits

/-- The steps of a schedule keep the invariant. -/
theorem IsSound.run (hcurrent : host.tree.IsSettled host.tree.current)
    (h : IsSound host server calls moment) (schedule : List ι) :
    IsSound host server calls (moment.run host schedule) := by
  induction schedule generalizing moment with
  | nil => exact h
  | cons i rest ih => exact ih (h.step hcurrent i)

end

/-! ## Every call ends -/

theorem stepsLeft_step_le (host : Host) (moment : Moment ι) (i j : ι) :
    ((moment.step host i).stage j).stepsLeft ≤
      (moment.stage j).stepsLeft - if i = j then 1 else 0 := by
  unfold step
  by_cases hj : i = j
  · subst hj
    simpa using Stage.stepsLeft_step_le host moment.session (moment.stage i)
  · rw [if_neg hj]
    simp [Ne.symm hj]

/-- Each time that a call goes on, fewer steps are left to it. -/
theorem stepsLeft_run_le (host : Host) (moment : Moment ι) (schedule : List ι) (j : ι) :
    ((moment.run host schedule).stage j).stepsLeft ≤
      (moment.stage j).stepsLeft - schedule.count j := by
  induction schedule generalizing moment with
  | nil => exact Nat.le_refl _
  | cons i rest ih =>
    have hrest := ih (moment.step host i)
    have hfirst := stepsLeft_step_le host moment i j
    change (((moment.step host i).run host rest).stage j).stepsLeft ≤ _
    rw [List.count_cons, beq_eq_decide]
    simp only [decide_eq_true_eq]
    omega

/-! ## Transparency -/

/-- No schedule changes what a call answers.  Whatever calls are answered at the same time, and in
whatever order they take their steps: nothing but the cache changes; a call that has ended has the
result that it has alone on the server with an empty cache; a call has ended when it went on four
times; the report cached under a key is the fresh one, for this key, of the file at the real path in
the key, by whatever name it is opened; and there are no more reports than a cache holds.

The system reports the current directory without links, so it is settled. -/
theorem run_isTransparent (host : Host) (server : Session) (calls : ι → Tool × Json.Members)
    (schedule : List ι) (hcurrent : host.tree.IsSettled host.tree.current) :
    let moment := (start (server.withCache .empty) calls).run host schedule
    moment.session = server.withCache moment.session.cache ∧
      (∀ i result, moment.stage i = .ended result →
        result = (Call.run (server.withCache .empty) ((calls i).1.call host (calls i).2)).1) ∧
      (∀ i, 4 ≤ schedule.count i → ∃ result, moment.stage i = .ended result) ∧
      (∀ key cached, moment.session.cache.get? key = some cached →
        (∃ name, host.tree.isFile name = true ∧ host.tree.realPath name = key.path) ∧
          ∀ name, host.tree.isFile name = true → host.tree.realPath name = key.path →
            (freshReport host name key.mode key.rawBase key.minLength).2 = .ok cached.report) ∧
      moment.session.cache.size ≤ ReportCache.capacity := by
  intro moment
  have hsound : IsSound host (server.withCache .empty) calls moment :=
    (isSound_start rfl).run hcurrent schedule
  refine ⟨hsound.session_eq, fun i result hended => ?_, fun i hcount => ?_,
    fun key cached hcached => hsound.keeps.of_get? hcached, hsound.size_le⟩
  · have hfits := hsound.fits i
    rw [hended] at hfits
    exact hfits
  · have hleft : (moment.stage i).stepsLeft ≤ 4 - schedule.count i :=
      stepsLeft_run_le host (start (server.withCache .empty) calls) schedule i
    exact Stage.eq_ended_of_stepsLeft (by omega)

/-- Two calls about one file, one by its name and one through a link, which both miss and both
store. -/
theorem run_isTransparent_through_link :
    let tree : FileTree := ⟨["srv"], [(["srv"], .directory),
      (["srv", "blob"], .file (Bytes.ofAscii "hello world")), (["srv", "alias"], .link "blob")]⟩
    let host : Host := ⟨tree, .all, .usual⟩
    let calls : Bool → Tool × Json.Members
      | true => (.page, [("file_path", .str "blob"), ("mode", .str "raw")])
      | false => (.summary, [("file_path", .str "alias"), ("mode", .str "raw")])
    let moment := (start (Session.initial.withCache .empty) calls).run host
      [true, false, true, false, true, false, true, false]
    tree.IsSettled tree.current ∧ moment.session.cache.size = 1 ∧
      ∀ i, ∃ result, moment.stage i = .ended result ∧
        result = (Call.run (Session.initial.withCache .empty)
          ((calls i).1.call host (calls i).2)).1 := by
  intro tree host calls moment
  have hcurrent : tree.IsSettled tree.current := .of_directory (by decide) rfl
  have hall := run_isTransparent host Session.initial calls
    [true, false, true, false, true, false, true, false] hcurrent
  have hcount : ∀ i, 4 ≤ [true, false, true, false, true, false, true, false].count i := by decide
  have hsize : moment.session.cache.size = 1 := by decide +kernel
  refine ⟨hcurrent, hsize, fun i => ?_⟩
  obtain ⟨result, hresult⟩ := hall.2.2.1 i (hcount i)
  exact ⟨result, hresult, hall.2.1 i result hresult⟩

end Moment

end BinaryStrings.Server

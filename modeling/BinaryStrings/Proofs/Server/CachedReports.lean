import BinaryStrings.Proofs.Image.Contents
import BinaryStrings.Proofs.Outcome
import BinaryStrings.Proofs.Server.Inquiry

/-!
# Cached reports are fresh

A report is kept under all that it depends on: the real path stands for the bytes of the file, and
mode, load address and least length decide what is made of them.  So a report that was right when it
was put into the cache is right for every name of the file, and a call that finds it there goes on as
if it had made the report itself.

`Session.Keeps` says that the reports of a cache have some property.  What a call puts into the cache
is a fresh report of a file, so properties of these are kept by all calls.

Main results:

- Theorem `freshReport_eq_ok`: the same file gives the same report.
- Theorem `Inquiry.after_keeps`: what an inquiry leaves in the cache.
-/

namespace BinaryStrings.Server

/-! ## The cache -/

namespace ReportCache

variable {α : Type} {cache : ReportCache α} {key : ReportKey} {value : α}

/-- What is found in a cache is one of its entries. -/
theorem mem_of_get?_eq_some (h : cache.get? key = some value) : (key, value) ∈ cache.entries := by
  obtain ⟨before, behind, hentries, -⟩ := List.lookup_eq_some_iff.1 h
  rw [hentries]
  simp

/-- What is in a cache after a value was set was there before, or is this value. -/
theorem mem_entries_set {entry : ReportKey × α} (h : entry ∈ (cache.set key value).2.entries) :
    entry ∈ cache.entries ∨ entry = (key, value) := by
  have hmem : entry ∈ cache.overfull key value := List.mem_of_mem_drop h
  unfold overfull at hmem
  rw [List.mem_append, List.mem_filter, List.mem_singleton] at hmem
  exact hmem.imp_left And.left

/-- Setting a value leaves at most as many values as a cache holds. -/
theorem size_set_le (cache : ReportCache α) (key : ReportKey) (value : α) :
    (cache.set key value).2.size ≤ capacity := by
  simp only [size, set, List.length_drop]
  omega

end ReportCache

/-! ## Fresh reports -/

/-- A fresh report is what is extracted from the source that the file is opened as. -/
theorem freshReport_eq_ok_iff {host : Host} {path mode : String} {rawBase minLength : Int}
    {report : Report} :
    (freshReport host path mode rawBase minLength).2 = .ok report ↔
      ∃ source, (OpenFile.openSource host.tree host.readers path mode rawBase).2 = .ok source ∧
        (Extraction.extract source minLength host.defaults.workers Label.declared).2 =
          .ok report := by
  unfold freshReport
  rcases OpenFile.openSource host.tree host.readers path mode rawBase with
    ⟨lines, error | source⟩
  · simp
  · simp [mapError_eq_ok_iff]

/-- The same file gives the same report, by whatever name and on whatever host it is opened. -/
theorem freshReport_eq_ok {host other : Host} {path path' : String}
    (hopened : host.tree.fileAt? path = other.tree.fileAt? path')
    (hreaders : host.readers = other.readers) (hdefaults : host.defaults = other.defaults)
    {mode : String} {rawBase minLength : Int} {report : Report}
    (h : (freshReport host path mode rawBase minLength).2 = .ok report) :
    (freshReport other path' mode rawBase minLength).2 = .ok report := by
  rw [freshReport_eq_ok_iff] at h ⊢
  obtain ⟨source, hsource, hreport⟩ := h
  have hother : ∃ source',
      (OpenFile.openSource other.tree other.readers path' mode rawBase).2 = .ok source' ∧
        source.HasContentsOf source' := by
    unfold OpenFile.openSource at hsource ⊢
    rw [hopened, hreaders] at hsource
    split at hsource
    · cases hsource
    · split at hsource
      · exact OpenFile.openFile_path path' hsource
      · cases hsource
  obtain ⟨source', hsource', hcontents⟩ := hother
  refine ⟨source', hsource', ?_⟩
  rw [← hdefaults, ← Extraction.extract_congr hcontents]
  exact hreport

/-! ## What calls leave in the cache -/

/-- The same server with another cache. -/
def Session.withCache (session : Session) (cache : ReportCache CachedReport) : Session :=
  { session with cache }

/-- All reports in the cache have a property, which may depend on the key. -/
def Session.Keeps (P : ReportKey → Report → Prop) (session : Session) : Prop :=
  ∀ entry ∈ session.cache.entries, P entry.1 entry.2.report

/-- What holds of all reports of a session holds of one that is found. -/
theorem Session.Keeps.of_get? {P : ReportKey → Report → Prop} {session : Session}
    (h : session.Keeps P) {key : ReportKey} {cached : CachedReport}
    (hget : session.cache.get? key = some cached) : P key cached.report :=
  h _ (ReportCache.mem_of_get?_eq_some hget)

namespace Inquiry

variable {host : Host} {session : Session} {inquiry : Inquiry} {P : ReportKey → Report → Prop}

/-- To store a report changes nothing but the cache. -/
theorem stored_eq_withCache (host : Host) (session : Session) (inquiry : Inquiry)
    (report : Report) :
    inquiry.stored host session report =
      session.withCache (inquiry.stored host session report).cache :=
  rfl

/-- A report with a property goes to the others. -/
theorem stored_keeps (hsession : session.Keeps P) {report : Report}
    (hreport : P (inquiry.key host session) report) :
    (inquiry.stored host session report).Keeps P := by
  intro entry hentry
  rcases ReportCache.mem_entries_set hentry with hold | hnew
  · exact hsession entry hold
  · rw [hnew]
    exact hreport

/-- A cache never grows beyond its capacity. -/
theorem size_stored_le (host : Host) (session : Session) (inquiry : Inquiry) (report : Report) :
    (inquiry.stored host session report).cache.size ≤ ReportCache.capacity :=
  ReportCache.size_set_le _ _ _

/-- What an inquiry leaves in the cache: what was there, and a fresh report. -/
theorem after_keeps (hsession : session.Keeps P)
    (hfresh : ∀ report, inquiry.fresh host session = .ok report →
      P (inquiry.key host session) report) :
    (inquiry.after host session).Keeps P := by
  unfold after
  split
  · exact hsession
  · split
    · rename_i report hreport
      exact stored_keeps hsession (hfresh report hreport)
    · exact hsession

/-- An inquiry changes nothing but the cache. -/
theorem after_eq_withCache (host : Host) (session : Session) (inquiry : Inquiry) :
    inquiry.after host session = session.withCache (inquiry.after host session).cache := by
  unfold after
  split
  · rfl
  · split <;> rfl

end Inquiry

/-! ## The file of an inquiry -/

/-- If the call asks for a report, then that of a file. -/
def Course.AsksForFile (host : Host) (course : Course) : Prop :=
  ∀ inquiry, course = .asks inquiry → host.tree.isFile inquiry.target = true

namespace Course.AsksForFile

variable {host : Host}

theorem decided (result : Except CallError Json) : AsksForFile host (.decided result) :=
  fun _ h => by cases h

/-- A course that goes on with what was accepted. -/
theorem require {α : Type} {outcome : Except CallError α} {next : α → Course}
    (hnext : ∀ value, outcome = .ok value → AsksForFile host (next value)) :
    AsksForFile host (.require outcome next) := by
  cases outcome with
  | error error => exact decided _
  | ok value => exact hnext value rfl

/-- A course that asks for the report of a path. -/
theorem reportAt (session : Session) (path : Json) (mode : Option String)
    (minLength : Option GivenNumber) (answer : String → Report → Except CallError Json) :
    AsksForFile host (courseOf host session path mode minLength answer) := by
  refine require fun target htarget inquiry hasks => ?_
  cases hasks
  exact isFile_of_targetOf htarget

end Course.AsksForFile

open Course.AsksForFile in
/-- Calls ask for reports of files only. -/
theorem Tool.asksForFile_course (host : Host) (session : Session) (tool : Tool)
    (given : Json.Members) : (tool.course host session given).AsksForFile host := by
  refine require fun values _ => ?_
  unfold courseWith
  split
  · refine require fun minLength _ => require fun mode _ => require fun labels _ => ?_
    exact require fun limit _ => require fun offset _ => reportAt _ _ _ _ _
  · refine require fun count _ => require fun patterns _ => require fun limit _ => ?_
    refine require fun minLength _ => require fun mode _ => ?_
    exact require fun labels _ => reportAt _ _ _ _ _
  · refine require fun address _ => require fun minLength _ => ?_
    exact require fun mode _ => reportAt _ _ _ _ _
  · exact require fun minLength _ => require fun mode _ => reportAt _ _ _ _ _
  · exact require fun target _ => require fun found _ => decided _
  · exact decided _

/-- The course of a call does not depend on the cache. -/
theorem Tool.course_withCache (host : Host) (session : Session)
    (cache : ReportCache CachedReport) (tool : Tool) (given : Json.Members) :
    tool.course host (session.withCache cache) given = tool.course host session given :=
  rfl

/-! ## What calls leave of a session -/

namespace Tool

variable {host : Host} {session : Session} {P : ReportKey → Report → Prop}

/-- A call changes nothing but the cache. -/
theorem run_call_eq_withCache (host : Host) (session : Session) (tool : Tool)
    (given : Json.Members) :
    (Call.run session (tool.call host given)).2.session =
      session.withCache (Call.run session (tool.call host given)).2.session.cache := by
  rw [(run_call host session tool given).2]
  cases tool.course host session given with
  | decided result => rfl
  | asks inquiry => exact inquiry.after_eq_withCache host session

/-- What a call leaves in the cache: what was there, and a fresh report. -/
theorem run_call_keeps (hsession : session.Keeps P) (tool : Tool) (given : Json.Members)
    (hfresh : ∀ (inquiry : Inquiry) report, host.tree.isFile inquiry.target = true →
      inquiry.fresh host session = .ok report → P (inquiry.key host session) report) :
    (Call.run session (tool.call host given)).2.session.Keeps P := by
  rw [(run_call host session tool given).2]
  have hfile := asksForFile_course host session tool given
  cases hcourse : tool.course host session given with
  | decided result => exact hsession
  | asks inquiry => exact inquiry.after_keeps hsession fun report => hfresh inquiry report (hfile inquiry hcourse)

end Tool

/-- The key of a report does not depend on the cache, -/
theorem Inquiry.key_withCache (host : Host) (session : Session) (cache : ReportCache CachedReport)
    (inquiry : Inquiry) : inquiry.key host (session.withCache cache) = inquiry.key host session :=
  rfl

/-- nor does a fresh report. -/
theorem Inquiry.fresh_withCache (host : Host) (session : Session)
    (cache : ReportCache CachedReport) (inquiry : Inquiry) :
    inquiry.fresh host (session.withCache cache) = inquiry.fresh host session :=
  rfl

end BinaryStrings.Server

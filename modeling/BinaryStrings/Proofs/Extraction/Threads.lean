import BinaryStrings.Proofs.Extraction.Outcome
import BinaryStrings.Proofs.Extraction.Pool

/-!
# Threads do not change what is extracted

However the threads of a pool are scheduled, an extraction yields what it yields with one worker.  The
pool of an extraction is sound after every schedule, so when it has ended the caller is left with what
the sections give in turn.

Main results:

- Theorem `outcome_of_isEnded` and `log_perm_of_isEnded`: what the caller is left with.
- Theorem `exists_run_inTurn`: one of the schedules scans the sections in turn.
- Theorem `extractBy_eq`: no schedule changes the report or the failure.
-/

namespace BinaryStrings.Extraction

section Pool

variable {source : Source} {minLength : Int} {labels : List String} {pool : Pool labels.length}
  {threads : Nat}

/-! ## What the pool ends with -/

theorem scanAt_eq_error_iff {place : Fin labels.length} {raised : Raised} :
    (scanAt source minLength labels place).2 = .error raised ↔
      failureAt? source (labels.get place) = some raised := by
  rw [scanAt, scanSection_eq]
  cases failureAt? source (labels.get place) <;> simp

theorem scanAt_eq_ok_iff {place : Fin labels.length} {found : List Entry} :
    (scanAt source minLength labels place).2 = .ok found ↔
      failureAt? source (labels.get place) = none ∧
        findings source minLength (labels.get place) = found := by
  rw [scanAt, scanSection_eq]
  cases failureAt? source (labels.get place) <;> simp

/-- However the tasks were scheduled, the caller is left with what the sections give in turn. -/
theorem outcome_of_isEnded (h : Pool.IsSound (scanAt source minLength labels) pool)
    (hended : pool.isEnded) : pool.outcome = (scanSections source minLength labels).2 := by
  rw [scanSections_eq, Pool.outcome]
  cases hfailure : pool.failure with
  | some raised =>
    -- What was collected before the failure did not fail, so it is the first one of the labels.
    obtain ⟨place, hplace, hearlier⟩ := h.exists_first_failure hfailure
    have hfirst : labels.findSome? (failureAt? source) = some raised := by
      apply List.findSome?_eq_some_iff.2
      refine ⟨labels.take place, labels.get place, labels.drop (place + 1), ?_,
        scanAt_eq_error_iff.1 hplace, ?_⟩
      · rw [List.get_eq_getElem, List.getElem_cons_drop, List.take_append_drop]
      · intro label hlabel
        obtain ⟨k, hk, rfl⟩ := List.mem_take_iff_getElem.1 hlabel
        obtain ⟨found, hfound⟩ := hearlier ⟨k, by omega⟩ (Fin.lt_def.2 (by simp; omega))
        exact (scanAt_eq_ok_iff.1 hfound).1
    rw [hfirst]
  | none =>
    obtain ⟨hlength, heach⟩ := h.collected_of_isEnded hended hfailure
    have hnone : labels.findSome? (failureAt? source) = none := by
      apply List.findSome?_eq_none_iff.2
      intro label hlabel
      obtain ⟨k, hk, rfl⟩ := List.getElem_of_mem hlabel
      obtain ⟨_, hscan⟩ := heach k (by omega)
      exact (scanAt_eq_ok_iff.1 hscan).1
    have hcollected : pool.collected = labels.map (findings source minLength) := by
      refine List.ext_getElem (by rw [hlength, List.length_map]) ?_
      intro k hk _
      obtain ⟨_, hscan⟩ := heach k hk
      rw [List.getElem_map]
      exact (scanAt_eq_ok_iff.1 hscan).2.symm
    rw [hnone, hcollected, List.flatMap_def]

/-- Sections that do not fail log their lines in turn. -/
theorem scanSections_log {found : List Entry}
    (h : (scanSections source minLength labels).2 = .ok found) :
    (scanSections source minLength labels).1 =
      labels.flatMap fun label => (scanSection minLength label (source.sectionAt label)).1 := by
  induction labels generalizing found with
  | nil => rfl
  | cons label rest ih =>
    rw [List.flatMap_cons]
    rw [scanSections] at h ⊢
    rcases hscan : scanSection minLength label (source.sectionAt label) with ⟨lines, _ | own⟩ <;>
      rw [hscan] at h
    · cases h
    · rcases hrest : scanSections source minLength rest with ⟨more, _ | others⟩ <;>
        rw [hrest] at h ih
      · cases h
      · exact congrArg (lines ++ ·) (ih rfl)

/-- Threads change the order of the lines only. -/
theorem log_perm_of_isEnded (h : Pool.IsSound (scanAt source minLength labels) pool)
    (hended : pool.isEnded) {found : List Entry} (hfound : pool.outcome = .ok found) :
    pool.log.Perm (scanSections source minLength labels).1 := by
  have hfailure : pool.failure = none := by
    unfold Pool.outcome at hfound
    split at hfound
    · cases hfound
    · assumption
  have hturn := scanSections_log ((outcome_of_isEnded h hended).symm.trans hfound)
  apply Multiset.coe_eq_coe.1
  rw [h.log_of_isEnded hended hfailure, hturn, ← Multiset.coe_bind, Multiset.bind, Multiset.join,
    Multiset.map_coe, Multiset.sum_coe]
  exact Fin.sum_univ_fun_getElem labels fun label =>
    ((scanSection minLength label (source.sectionAt label)).1 : Multiset Log.Line)

/-- A section logs its lines, and those behind it log theirs unless it fails. -/
theorem scanSections_log_drop (source : Source) (minLength : Int) (labels : List String)
    (place : Fin labels.length) :
    (scanSections source minLength (labels.drop place)).1 =
      match scanAt source minLength labels place with
      | (lines, .error _) => lines
      | (lines, .ok _) => lines ++ (scanSections source minLength (labels.drop (place + 1))).1 := by
  have hdrop : labels.drop place = labels.get place :: labels.drop (place + 1) :=
    List.drop_eq_getElem_cons place.isLt
  rw [hdrop, scanSections, scanAt]
  rcases scanSection minLength (labels.get place) (source.sectionAt (labels.get place)) with
    ⟨lines, _ | found⟩
  · rfl
  · rcases scanSections source minLength (labels.drop (place + 1)) with ⟨more, _ | others⟩ <;> rfl

/-- The tasks that are left can be scanned in turn. -/
theorem exists_run_inTurn (source : Source) (minLength : Int) {labels : List String}
    (pool : Pool labels.length) (hthreads : 0 < threads) (hfailure : pool.failure = none)
    (hwaiting : ∀ place : Fin labels.length, pool.collected.length ≤ place →
      pool.task place = .waiting)
    (hbusy : pool.busy = 0) :
    ∃ schedule final, pool.run (scanAt source minLength labels) threads schedule = some final ∧
      final.isEnded ∧
      final.log = pool.log ++
        (scanSections source minLength (labels.drop pool.collected.length)).1 := by
  -- The induction is on the sections that are left.  Their tasks all wait and no thread is at work,
  -- which is so again after the next one was scanned and its entries collected.
  induction hleft : labels.length - pool.collected.length generalizing pool with
  | zero =>
    have hdone : labels.length ≤ pool.collected.length := by omega
    refine ⟨[], pool, rfl, Pool.isEnded_iff.2 ⟨Pool.next?_eq_none_iff.2 fun _ => hdone, hbusy⟩, ?_⟩
    rw [List.drop_eq_nil_of_le hdone, scanSections, List.append_nil]
  | succ left ih =>
    obtain ⟨place, hplace⟩ : ∃ place : Fin labels.length, pool.collected.length = place :=
      ⟨⟨_, by omega⟩, rfl⟩
    have hnext : pool.next? = some place := Pool.next?_eq_some_iff.2 ⟨hfailure, hplace⟩
    have hfree : pool.busy < threads := by omega
    have hrun := Pool.run_next (scanAt source minLength labels) hnext
      (hwaiting place hplace.le) hfree
    have hidle := Pool.busy_finish place (scanAt source minLength labels place) hbusy
    rw [hplace, scanSections_log_drop]
    rcases hwork : scanAt source minLength labels place with ⟨lines, raised | found⟩ <;>
      rw [hwork] at hrun hidle
    · refine ⟨_, _, hrun, ?_, rfl⟩
      rw [Pool.isEnded_iff, Pool.next?_eq_none_iff, Pool.busy_abandon]
      refine ⟨?_, hidle⟩
      intro hnone
      cases hnone
    · have hlength : ((pool.finish place (lines, .ok found)).accept found).collected.length =
          place + 1 := by
        rw [← hplace]
        exact List.length_append
      have hbehind : ∀ other : Fin labels.length, place + 1 ≤ (other : Nat) →
          ((pool.finish place (lines, .ok found)).accept found).task other = .waiting := by
        intro other hother
        have hne : other ≠ place := by
          rintro rfl
          omega
        exact (Pool.setTask_task_of_ne pool hne _).trans (hwaiting other (by omega))
      obtain ⟨schedule, final, hrest, hended, hlog⟩ :=
        ih ((pool.finish place (lines, .ok found)).accept found) hfailure (hlength ▸ hbehind) hidle
          (by omega)
      rw [hlength] at hlog
      refine ⟨[.takeUp place, .finish place, .collect] ++ schedule, final, ?_, hended, ?_⟩
      · rw [Pool.run_append, hrun]
        exact hrest
      · rw [hlog, ← List.append_assoc]
        rfl

end Pool

/-! ## Extraction -/

section

variable {source : Source} {minLength workers : Int} {labels : List String}

/-- What an extraction concludes with depends on the outcome of the scan and, up to their order, on
the lines logged. -/
theorem conclude_congr (labels : List String)
    (scan other : List Log.Line × Except Raised (List Entry)) (houtcome : scan.2 = other.2) :
    (conclude labels scan).2 = (conclude labels other).2 ∧
      (scan.1.Perm other.1 → (conclude labels scan).1.Perm (conclude labels other).1) := by
  obtain ⟨lines, outcome⟩ := scan
  obtain ⟨others, rfl⟩ : ∃ others, other = (others, outcome) := ⟨other.1, Prod.ext rfl houtcome.symm⟩
  cases outcome with
  | error raised => exact ⟨rfl, id⟩
  | ok found => exact ⟨rfl, fun h => h.append_right _⟩

theorem extract_eq_conclude (hworkers : 1 ≤ workers) :
    extract source minLength workers labels =
      conclude labels (scanSections source (effectiveLength minLength) labels) := by
  rw [extract, if_neg (by omega)]
  rcases scanSections source (effectiveLength minLength) labels with ⟨lines, _ | found⟩ <;> rfl

/-- One section or none needs no pool. -/
theorem extractBy_of_few (hworkers : 1 < workers) (hfew : labels.length < 2)
    (schedule : List (Event labels.length)) :
    extractBy source minLength workers labels schedule =
      some (extract source minLength workers labels) := by
  rw [extractBy, if_neg (by omega), if_pos (.inr hfew), extract_eq_conclude (by omega)]

theorem extractBy_of_many (hworkers : 1 < workers) (hmany : ¬ labels.length < 2)
    (schedule : List (Event labels.length)) :
    extractBy source minLength workers labels schedule =
      (poolAfter source minLength workers labels schedule).bind fun pool =>
        if pool.isEnded then some (conclude labels (pool.log, pool.outcome)) else none := by
  rw [extractBy, if_neg (by omega), if_neg (by omega)]
  cases poolAfter source minLength workers labels schedule <;> rfl

theorem isSound_poolAfter {schedule : List (Event labels.length)} {pool : Pool labels.length}
    (h : poolAfter source minLength workers labels schedule = some pool) :
    Pool.IsSound (scanAt source (effectiveLength minLength) labels) pool :=
  (Pool.isSound_start _).run h

theorem threadsFor_pos (hworkers : 1 < workers) (hmany : ¬ labels.length < 2) :
    0 < threadsFor workers labels := by
  unfold threadsFor
  omega

/-- However the threads are scheduled, an extraction yields the report or the failure that it yields
with one worker, and only the order of the lines logged is another. -/
theorem outcome_extractBy (hworkers : 1 < workers) {schedule : List (Event labels.length)}
    {result : List Log.Line × Except Error Report}
    (h : extractBy source minLength workers labels schedule = some result) :
    result.2 = (extract source minLength 1 labels).2 ∧
      ∀ report, result.2 = .ok report → result.1.Perm (extract source minLength 1 labels).1 := by
  rw [extract_eq_conclude le_rfl]
  by_cases hfew : labels.length < 2
  · rw [extractBy_of_few hworkers hfew, extract_eq_conclude hworkers.le] at h
    cases h
    exact ⟨rfl, fun _ _ => .refl _⟩
  · rw [extractBy_of_many hworkers hfew, Option.bind_eq_some_iff] at h
    obtain ⟨pool, hpool, h⟩ := h
    split at h
    · rename_i hended
      cases h
      have hsound := isSound_poolAfter hpool
      obtain ⟨houtcome, hlog⟩ := conclude_congr labels (pool.log, pool.outcome) _
        (outcome_of_isEnded hsound hended)
      refine ⟨houtcome, ?_⟩
      intro report hreport
      apply hlog
      cases hfound : pool.outcome with
      | error raised =>
        rw [hfound] at hreport
        cases hreport
      | ok found => exact log_perm_of_isEnded hsound hended hfound
    · cases h

/-- A schedule is never stuck: it has at most three events for each section, and it can go on until
the extraction yields something. -/
theorem exists_extractBy (hworkers : 1 < workers) {schedule : List (Event labels.length)}
    {pool : Pool labels.length}
    (h : poolAfter source minLength workers labels schedule = some pool) :
    schedule.length ≤ 3 * labels.length ∧
      ∃ rest, (extractBy source minLength workers labels (schedule ++ rest)).isSome := by
  constructor
  · have hleft := Pool.stepsLeft_run_le h
    rw [Pool.stepsLeft_start] at hleft
    omega
  · by_cases hfew : labels.length < 2
    · refine ⟨[], ?_⟩
      rw [extractBy_of_few hworkers hfew]
      rfl
    · obtain ⟨rest, final, hrest, hended⟩ :=
        (isSound_poolAfter h).exists_run (threadsFor_pos hworkers hfew)
      have hfinal : poolAfter source minLength workers labels (schedule ++ rest) = some final := by
        rw [poolAfter, Pool.run_append]
        exact (congrArg (Option.bind · _) h).trans hrest
      refine ⟨rest, ?_⟩
      rw [extractBy_of_many hworkers hfew, hfinal, Option.bind_some, if_pos hended]
      rfl

/-- The extraction in turn is that of one of the schedules. -/
theorem exists_extractBy_eq (hworkers : 1 < workers) :
    ∃ schedule, extractBy source minLength workers labels schedule =
      some (extract source minLength workers labels) := by
  by_cases hfew : labels.length < 2
  · exact ⟨[], extractBy_of_few hworkers hfew []⟩
  · obtain ⟨schedule, final, hrun, hended, hlog⟩ := exists_run_inTurn source
      (effectiveLength minLength) Pool.start (threadsFor_pos hworkers hfew) rfl (fun _ _ => rfl)
      (Pool.busy_eq_zero_iff.2 fun _ h => by cases h)
    have houtcome := outcome_of_isEnded ((Pool.isSound_start _).run hrun) hended
    have hscan : (final.log, final.outcome) =
        scanSections source (effectiveLength minLength) labels := Prod.ext hlog houtcome
    refine ⟨schedule, ?_⟩
    rw [extractBy_of_many hworkers hfew, poolAfter, hrun, Option.bind_some, if_pos hended, hscan,
      extract_eq_conclude hworkers.le]

end

/-- Threads do not change what is extracted.  Under every schedule an extraction by several workers
yields the report that one worker yields, entry for entry, with the same lines logged in some order, or
the same failure.  No schedule has more than three events for each section, and every schedule can go
on until the extraction yields something; the extraction in turn follows one of them.  A failure is
that of the first section in the list of labels that fails. -/
theorem extractBy_eq (source : Source) (minLength workers : Int) (labels : List String)
    (hworkers : 1 < workers) :
    (∀ schedule result, extractBy source minLength workers labels schedule = some result →
      result.2 = (extract source minLength 1 labels).2 ∧
        ∀ report, result.2 = .ok report → result.1.Perm (extract source minLength 1 labels).1) ∧
    (∀ schedule pool, poolAfter source minLength workers labels schedule = some pool →
      schedule.length ≤ 3 * labels.length ∧
        ∃ rest, (extractBy source minLength workers labels (schedule ++ rest)).isSome) ∧
    (∃ schedule, extractBy source minLength workers labels schedule =
      some (extract source minLength workers labels)) ∧
    ∀ raised, (extract source minLength 1 labels).2 = .error (.failure raised) ↔
      ∃ before label behind, labels = before ++ label :: behind ∧
        source.sectionAt label = .error (.failure raised) ∧
        ∀ earlier ∈ before, ∀ other, source.sectionAt earlier ≠ .error (.failure other) := by
  refine ⟨?_, ?_, exists_extractBy_eq hworkers, ?_⟩
  · intro schedule result hresult
    exact outcome_extractBy hworkers hresult
  · intro schedule pool hpool
    exact exists_extractBy hworkers hpool
  · intro raised
    exact extract_eq_failure_iff le_rfl

/-- Two threads; the section that comes last in the list is the first one to fail. -/
theorem extractBy_eq_two :
    let noBytes : String → Raised := fun label =>
      ⟨.other, "RuntimeError", "no bytes for " ++ label⟩
    let sectionAt : String → SectionResult := fun label =>
      if label = ".text" then .ok ⟨0x1000, Bytes.ofAscii "hello world"⟩
      else .error (.failure (noBytes label))
    let source : Source := ⟨"memory", none, sectionAt⟩
    let labels := [".text", ".rodata", ".data.rel.ro"]
    let schedule : List (Event labels.length) :=
      [.takeUp 2, .takeUp 1, .finish 2, .finish 1, .takeUp 0, .finish 0, .collect, .collect]
    (1 : Int) < 2 ∧
      (∃ result, extractBy source 4 2 labels schedule = some result ∧
        result.2 = .error (.failure (noBytes ".rodata"))) ∧
      (extract source 4 1 labels).2 = .error (.failure (noBytes ".rodata")) := by
  intro noBytes sectionAt source labels schedule
  have hresult : (extractBy source 4 2 labels schedule).map (·.2) =
      some (.error (.failure (noBytes ".rodata"))) := by
    decide +kernel
  obtain ⟨result, hby, hfailure⟩ := Option.map_eq_some_iff.1 hresult
  obtain ⟨hall, -⟩ := extractBy_eq source 4 2 labels (by decide)
  exact ⟨by decide, ⟨result, hby, hfailure⟩, (hall schedule result hby).1.symm.trans hfailure⟩

end BinaryStrings.Extraction

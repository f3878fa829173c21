import BinaryStrings.Extraction.Pool
import Mathlib.Algebra.BigOperators.Fin
import Mathlib.Algebra.Order.BigOperators.Group.Finset

/-!
# Schedules of a pool

What holds of a pool after every schedule, whatever its tasks are.  The invariant `Pool.IsSound` holds
from the start and is kept by every event: what is finished is what the task results in, and the
caller has collected the results of the first places, up to a failure.

Main results:

- Theorem `Pool.step_cases`: all that an event can do.
- Theorem `Pool.IsSound.step` and `Pool.IsSound.run`: events keep the invariant.
- Theorem `Pool.stepsLeft_run_le` and `Pool.IsSound.exists_run`: a schedule has at most three events
  for each task, and every schedule can go on until it ends.
- Theorem `Pool.IsSound.exists_first_failure` and `Pool.IsSound.collected_of_isEnded`: what the caller
  is left with.
-/

namespace BinaryStrings.Extraction

namespace Pool

variable {n : Nat} {work : Fin n → List Log.Line × Except Raised (List Entry)} {threads : Nat}
  {pool pool' : Pool n}

/-! ## Events -/

theorem setTask_task_self (pool : Pool n) (place : Fin n) (task : Task) :
    (pool.setTask place task).task place = task :=
  if_pos rfl

theorem setTask_task_of_ne (pool : Pool n) {place other : Fin n} (h : other ≠ place) (task : Task) :
    (pool.setTask place task).task other = pool.task other :=
  if_neg h

theorem setTask_setTask (pool : Pool n) (place : Fin n) (earlier later : Task) :
    (pool.setTask place earlier).setTask place later = pool.setTask place later := by
  unfold setTask
  congr 1
  funext other
  dsimp only
  split <;> rfl

/-- The next place to collect is the one behind those that are collected, as long as nothing failed. -/
theorem next?_eq_some_iff {place : Fin n} :
    pool.next? = some place ↔ pool.failure = none ∧ pool.collected.length = place := by
  unfold next?
  split
  · rename_i h
    rw [Option.some.injEq, Fin.ext_iff]
    exact (and_iff_right h.1).symm
  · rename_i h
    constructor
    · intro hnone
      cases hnone
    · rintro ⟨hfailure, hlength⟩
      exact absurd ⟨hfailure, hlength ▸ place.isLt⟩ h

/-- There is no next place after a failure, or when all are collected. -/
theorem next?_eq_none_iff :
    pool.next? = none ↔ (pool.failure = none → n ≤ pool.collected.length) := by
  simp [next?]

/-- A pool has ended when nothing is left to collect and no thread is busy. -/
theorem isEnded_iff : pool.isEnded ↔ pool.next? = none ∧ pool.busy = 0 := by
  simp [isEnded]

/-- No thread is busy exactly if no task is running. -/
theorem busy_eq_zero_iff : pool.busy = 0 ↔ ∀ place, pool.task place ≠ .running := by
  have htask : ∀ task : Task, task.isRunning = false ↔ task ≠ .running := by
    intro task
    cases task <;> simp [Task.isRunning]
  simp [busy, htask]

/-- To finish a task makes no thread busy. -/
theorem busy_finish (place : Fin n) (done : List Log.Line × Except Raised (List Entry))
    (h : pool.busy = 0) : (pool.finish place done).busy = 0 := by
  apply busy_eq_zero_iff.2
  intro other
  by_cases hother : other = place
  · subst hother
    simp [finish, setTask_task_self]
  · rw [finish, setTask_task_of_ne pool hother]
    exact busy_eq_zero_iff.1 h other

/-- To abandon the tasks that wait leaves the threads as they are. -/
theorem busy_abandon (pool : Pool n) (raised : Raised) : (pool.abandon raised).busy = pool.busy := by
  refine congrArg (List.countP · (List.finRange n)) (funext fun place => ?_)
  change (pool.task place).cancel.isRunning = _
  cases pool.task place <;> rfl

/-- All that an event can do: a waiting task is taken up while a thread is free, a running task is
finished with what it results in, the next result is collected, or the next failure is collected and
the waiting tasks are cancelled. -/
theorem step_cases {event : Event n} (h : pool.step work threads event = some pool') :
    (∃ place, pool.task place = .waiting ∧ pool.busy < threads ∧
      pool' = pool.setTask place .running) ∨
    (∃ place, pool.task place = .running ∧ pool' = pool.finish place (work place)) ∨
    (∃ place found, pool.next? = some place ∧ pool.task place = .finished (.ok found) ∧
      pool' = pool.accept found) ∨
    (∃ place raised, pool.next? = some place ∧ pool.task place = .finished (.error raised) ∧
      pool' = pool.abandon raised) := by
  cases event with
  | takeUp place =>
    simp only [step] at h
    split at h
    · rename_i hwaiting
      split at h
      · rename_i hbusy
        exact .inl ⟨place, hwaiting, hbusy, (Option.some.inj h).symm⟩
      · cases h
    · cases h
  | finish place =>
    simp only [step] at h
    split at h
    · rename_i hrunning
      exact .inr (.inl ⟨place, hrunning, (Option.some.inj h).symm⟩)
    · cases h
  | collect =>
    simp only [step] at h
    split at h
    · cases h
    · rename_i place hnext
      split at h
      · rename_i found hfound
        exact .inr (.inr (.inl ⟨place, found, hnext, hfound, (Option.some.inj h).symm⟩))
      · rename_i raised hraised
        exact .inr (.inr (.inr ⟨place, raised, hnext, hraised, (Option.some.inj h).symm⟩))
      · cases h

/-- A sum over the tasks when one of them is exchanged. -/
theorem sum_setTask {M : Type} [AddCommMonoid M] (f : Fin n → Task → M) (pool : Pool n)
    (place : Fin n) (task : Task) :
    ∑ other, f other ((pool.setTask place task).task other) + f place (pool.task place) =
      ∑ other, f other (pool.task other) + f place task := by
  have hrest : ∑ other ∈ Finset.univ.erase place, f other ((pool.setTask place task).task other) =
      ∑ other ∈ Finset.univ.erase place, f other (pool.task other) := by
    refine Finset.sum_congr rfl fun other hother => ?_
    rw [setTask_task_of_ne pool (Finset.ne_of_mem_erase hother)]
  rw [← Finset.add_sum_erase _ _ (Finset.mem_univ place),
    ← Finset.add_sum_erase _ (fun other => f other (pool.task other)) (Finset.mem_univ place), hrest,
    setTask_task_self, add_right_comm, add_comm (f place task), add_right_comm]

/-! ## The invariant -/

/-- What a task has logged. -/
def linesOf (work : Fin n → List Log.Line × Except Raised (List Entry)) (place : Fin n) :
    Task → Multiset Log.Line
  | .finished _ => (work place).1
  | _ => 0

/-- What holds after every schedule. -/
structure IsSound (work : Fin n → List Log.Line × Except Raised (List Entry)) (pool : Pool n) :
    Prop where
  finished : ∀ place outcome, pool.task place = .finished outcome → outcome = (work place).2
  /-- The results collected are those of the first places, in their order. -/
  collected : ∀ k (hk : k < pool.collected.length),
    ∃ hn : k < n, pool.task ⟨k, hn⟩ = .finished (.ok pool.collected[k])
  /-- The failure is that of the place behind them. -/
  failed : ∀ raised, pool.failure = some raised →
    ∃ hn : pool.collected.length < n, pool.task ⟨_, hn⟩ = .finished (.error raised)
  cancelled : ∀ place, pool.task place = .cancelled → pool.failure ≠ none
  logged : (pool.log : Multiset Log.Line) = ∑ place, linesOf work place (pool.task place)

/-- A pool is sound at the start: nothing is finished. -/
theorem isSound_start (work : Fin n → List Log.Line × Except Raised (List Entry)) :
    IsSound work start where
  finished := fun _ _ h => by cases h
  collected := fun _ hk => absurd hk (Nat.not_lt_zero _)
  failed := fun _ h => by cases h
  cancelled := fun _ h => by cases h
  logged := by simp [start, linesOf]

/-- A task that is not finished is taken up or finished. -/
theorem IsSound.setTask (h : IsSound work pool) {place : Fin n} {task : Task} {lines : List Log.Line}
    (hbefore : ∀ outcome, pool.task place ≠ .finished outcome)
    (hfinished : ∀ outcome, task = .finished outcome → outcome = (work place).2)
    (hcancelled : task ≠ .cancelled)
    (hlines : (lines : Multiset Log.Line) = linesOf work place task) :
    IsSound work { pool.setTask place task with log := pool.log ++ lines } := by
  have hkeep : ∀ other outcome, pool.task other = .finished outcome →
      (pool.setTask place task).task other = .finished outcome := by
    intro other outcome hother
    rw [setTask_task_of_ne, hother]
    rintro rfl
    exact hbefore outcome hother
  refine ⟨?_, ?_, ?_, ?_, ?_⟩
  · intro other outcome hother
    by_cases hplace : other = place
    · subst hplace
      rw [setTask_task_self] at hother
      exact hfinished outcome hother
    · rw [setTask_task_of_ne pool hplace] at hother
      exact h.finished other outcome hother
  · intro k hk
    obtain ⟨hn, hcollected⟩ := h.collected k hk
    exact ⟨hn, hkeep _ _ hcollected⟩
  · intro raised hraised
    obtain ⟨hn, hfailed⟩ := h.failed raised hraised
    exact ⟨hn, hkeep _ _ hfailed⟩
  · intro other hother
    by_cases hplace : other = place
    · subst hplace
      rw [setTask_task_self] at hother
      exact absurd hother hcancelled
    · rw [setTask_task_of_ne pool hplace] at hother
      exact h.cancelled other hother
  · have hnone : linesOf work place (pool.task place) = 0 := by
      cases htask : pool.task place with
      | finished outcome => exact absurd htask (hbefore outcome)
      | _ => rfl
    have hsum := sum_setTask (linesOf work) pool place task
    rw [hnone, add_zero, ← h.logged, ← hlines, Multiset.coe_add] at hsum
    exact hsum.symm

/-- The next result is collected. -/
theorem IsSound.accept (h : IsSound work pool) {place : Fin n} {found : List Entry}
    (hnext : pool.next? = some place) (htask : pool.task place = .finished (.ok found)) :
    IsSound work (pool.accept found) := by
  obtain ⟨hfailure, hlength⟩ := next?_eq_some_iff.1 hnext
  unfold Pool.accept
  refine ⟨h.finished, ?_, ?_, h.cancelled, h.logged⟩
  · intro k hk
    by_cases hold : k < pool.collected.length
    · rw [List.getElem_append_left hold]
      exact h.collected k hold
    · have hlast : k = place := by
        simp only [List.length_append, List.length_singleton] at hk
        omega
      subst hlast
      refine ⟨place.isLt, ?_⟩
      rw [List.getElem_append_right (by omega)]
      simpa using htask
  · intro raised hraised
    rw [hfailure] at hraised
    cases hraised

/-- To cancel a task does not finish it, and leaves it when it is finished. -/
theorem cancel_eq_finished_iff {task : Task} {outcome : Except Raised (List Entry)} :
    task.cancel = .finished outcome ↔ task = .finished outcome := by
  cases task <;> simp [Task.cancel]

/-- To cancel a task changes nothing that it has logged. -/
theorem linesOf_cancel (place : Fin n) (task : Task) :
    linesOf work place task.cancel = linesOf work place task := by
  cases task <;> rfl

/-- The next failure is collected. -/
theorem IsSound.abandon (h : IsSound work pool) {place : Fin n} {raised : Raised}
    (hnext : pool.next? = some place) (htask : pool.task place = .finished (.error raised)) :
    IsSound work (pool.abandon raised) := by
  obtain ⟨-, hlength⟩ := next?_eq_some_iff.1 hnext
  refine ⟨?_, ?_, ?_, ?_, ?_⟩
  · intro other outcome hother
    exact h.finished other outcome (cancel_eq_finished_iff.1 hother)
  · intro k hk
    obtain ⟨hn, hcollected⟩ := h.collected k hk
    exact ⟨hn, cancel_eq_finished_iff.2 hcollected⟩
  · intro other hother
    obtain rfl := Option.some.inj hother
    refine ⟨hlength ▸ place.isLt, cancel_eq_finished_iff.2 ?_⟩
    rw [← htask]
    exact congrArg pool.task (Fin.ext hlength)
  · intro other _
    exact Option.some_ne_none raised
  · rw [Pool.abandon, h.logged]
    exact Finset.sum_congr rfl fun other _ => (linesOf_cancel other _).symm

/-- An event keeps the invariant. -/
theorem IsSound.step (h : IsSound work pool) {event : Event n}
    (hstep : pool.step work threads event = some pool') : IsSound work pool' := by
  obtain ⟨place, hwaiting, _, rfl⟩ | ⟨place, hrunning, rfl⟩ | ⟨place, found, hnext, htask, rfl⟩ |
    ⟨place, raised, hnext, htask, rfl⟩ := step_cases hstep
  · have htaken : IsSound work { pool.setTask place .running with log := pool.log ++ [] } :=
      h.setTask (by simp [hwaiting]) (by simp) (by simp) rfl
    rw [List.append_nil] at htaken
    exact htaken
  · exact h.setTask (by simp [hrunning]) (by simp) (by simp) rfl
  · exact h.accept hnext htask
  · exact h.abandon hnext htask

theorem run_cons (pool : Pool n) (event : Event n) (schedule : List (Event n)) :
    pool.run work threads (event :: schedule) =
      (pool.step work threads event).bind fun next => next.run work threads schedule :=
  List.foldlM_cons

/-- A schedule is run part after part. -/
theorem run_append (pool : Pool n) (schedule rest : List (Event n)) :
    pool.run work threads (schedule ++ rest) =
      (pool.run work threads schedule).bind fun next => next.run work threads rest :=
  List.foldlM_append

/-- The events of a schedule keep the invariant. -/
theorem IsSound.run (h : IsSound work pool) {schedule : List (Event n)}
    (hrun : pool.run work threads schedule = some pool') : IsSound work pool' := by
  induction schedule generalizing pool with
  | nil =>
    cases hrun
    exact h
  | cons event schedule ih =>
    rw [run_cons, Option.bind_eq_some_iff] at hrun
    obtain ⟨next, hstep, hrest⟩ := hrun
    exact ih (h.step hstep) hrest

/-! ## Every schedule ends -/

/-- The most events that a task still takes part in, before its result is collected. -/
def Task.stepsLeft : Task → Nat
  | .waiting => 2
  | .running => 1
  | _ => 0

/-- The most events that are left. -/
def stepsLeft (pool : Pool n) : Nat :=
  ∑ place, Task.stepsLeft (pool.task place) +
    if pool.failure = none then n - pool.collected.length else 0

/-- Each task is taken up, finished and collected. -/
theorem stepsLeft_start : (start : Pool n).stepsLeft = 3 * n := by
  simp [stepsLeft, start, Task.stepsLeft]
  omega

/-- After an event fewer events are left. -/
theorem stepsLeft_step_lt {event : Event n} (hstep : pool.step work threads event = some pool') :
    pool'.stepsLeft < pool.stepsLeft := by
  have hset := sum_setTask (fun _ => Task.stepsLeft) pool
  obtain ⟨place, hwaiting, _, rfl⟩ | ⟨place, hrunning, rfl⟩ | ⟨place, found, hnext, htask, rfl⟩ |
    ⟨place, raised, hnext, htask, rfl⟩ := step_cases hstep
  · have hsum := hset place .running
    have hbefore : Task.stepsLeft (pool.task place) = 2 := congrArg Task.stepsLeft hwaiting
    have hafter : Task.stepsLeft .running = 1 := rfl
    refine Nat.add_lt_add_right (Nat.lt_of_add_lt_add_right (n := 2) ?_) _
    omega
  · have hsum := hset place (.finished (work place).2)
    have hbefore : Task.stepsLeft (pool.task place) = 1 := congrArg Task.stepsLeft hrunning
    have hafter : Task.stepsLeft (.finished (work place).2) = 0 := rfl
    refine Nat.add_lt_add_right (Nat.lt_of_add_lt_add_right (n := 1) ?_) _
    change ∑ other, Task.stepsLeft ((pool.setTask place (.finished (work place).2)).task other) + 1 < _
    omega
  · obtain ⟨hfailure, hlength⟩ := next?_eq_some_iff.1 hnext
    have hplace := place.isLt
    simp only [stepsLeft, accept, hfailure, ↓reduceIte, List.length_append, List.length_singleton]
    omega
  · obtain ⟨hfailure, hlength⟩ := next?_eq_some_iff.1 hnext
    have hplace := place.isLt
    have hcancel : ∑ other, Task.stepsLeft (pool.task other).cancel ≤
        ∑ other, Task.stepsLeft (pool.task other) := by
      refine Finset.sum_le_sum fun other _ => ?_
      cases pool.task other <;> simp [Task.cancel, Task.stepsLeft]
    simp only [stepsLeft, abandon, hfailure, ↓reduceIte, reduceCtorEq]
    omega

/-- A schedule takes away as many of the events that are left as it has. -/
theorem stepsLeft_run_le {schedule : List (Event n)}
    (hrun : pool.run work threads schedule = some pool') :
    schedule.length + pool'.stepsLeft ≤ pool.stepsLeft := by
  induction schedule generalizing pool with
  | nil =>
    cases hrun
    exact (Nat.zero_add _).le
  | cons event schedule ih =>
    rw [run_cons, Option.bind_eq_some_iff] at hrun
    obtain ⟨next, hstep, hrest⟩ := hrun
    have hfirst := stepsLeft_step_lt hstep
    have hothers := ih hrest
    rw [List.length_cons]
    omega

/-- As long as a pool has not ended, something can happen. -/
theorem IsSound.exists_step (h : IsSound work pool) (hthreads : 0 < threads)
    (hended : ¬ pool.isEnded) : ∃ event next, pool.step work threads event = some next := by
  by_cases hrunning : ∃ place, pool.task place = .running
  · obtain ⟨place, hplace⟩ := hrunning
    refine ⟨.finish place, ?_⟩
    simp only [Pool.step, hplace]
    exact ⟨_, rfl⟩
  · have hbusy : pool.busy = 0 := by
      apply List.countP_eq_zero.2
      intro place _ hplace
      apply hrunning
      refine ⟨place, ?_⟩
      cases htask : pool.task place <;> rw [htask] at hplace <;> cases hplace
    have hnext : ∃ place, pool.next? = some place := by
      apply Option.ne_none_iff_exists'.1
      intro hnone
      exact hended (isEnded_iff.2 ⟨hnone, hbusy⟩)
    obtain ⟨place, hnext⟩ := hnext
    cases htask : pool.task place with
    | waiting =>
      refine ⟨.takeUp place, ?_⟩
      simp only [Pool.step, htask, hbusy, hthreads, ↓reduceIte]
      exact ⟨_, rfl⟩
    | running => exact absurd ⟨place, htask⟩ hrunning
    | finished outcome =>
      refine ⟨.collect, ?_⟩
      simp only [Pool.step, hnext]
      cases outcome <;> exact ⟨_, by rw [htask]⟩
    | cancelled => exact absurd (next?_eq_some_iff.1 hnext).1 (h.cancelled place htask)

/-- So it can go on until it has ended. -/
theorem IsSound.exists_run (h : IsSound work pool) (hthreads : 0 < threads) :
    ∃ schedule final, pool.run work threads schedule = some final ∧ final.isEnded := by
  -- Each further event takes one of the events that are left.
  induction hleft : pool.stepsLeft using Nat.strong_induction_on generalizing pool with
  | _ left ih =>
    subst hleft
    by_cases hended : pool.isEnded
    · exact ⟨[], pool, rfl, hended⟩
    · obtain ⟨event, next, hstep⟩ := h.exists_step hthreads hended
      obtain ⟨schedule, final, hrun, hfinal⟩ :=
        ih next.stepsLeft (stepsLeft_step_lt hstep) (h.step hstep) rfl
      refine ⟨event :: schedule, final, ?_, hfinal⟩
      rw [run_cons, hstep]
      exact hrun

/-! ## What a pool ends with -/

/-- The failure collected is that of the first task that fails. -/
theorem IsSound.exists_first_failure (h : IsSound work pool) {raised : Raised}
    (hfailure : pool.failure = some raised) :
    ∃ place, (work place).2 = .error raised ∧
      ∀ earlier < place, ∃ found, (work earlier).2 = .ok found := by
  obtain ⟨hn, hfailed⟩ := h.failed raised hfailure
  refine ⟨_, (h.finished _ _ hfailed).symm, ?_⟩
  intro earlier hearlier
  obtain ⟨_, hcollected⟩ := h.collected earlier hearlier
  exact ⟨_, (h.finished _ _ hcollected).symm⟩

/-- Without a failure all results are collected at the end, each at its place. -/
theorem IsSound.collected_of_isEnded (h : IsSound work pool) (hended : pool.isEnded)
    (hfailure : pool.failure = none) :
    pool.collected.length = n ∧
      ∀ k (hk : k < pool.collected.length), ∃ hn : k < n,
        (work ⟨k, hn⟩).2 = .ok pool.collected[k] := by
  have hall : n ≤ pool.collected.length :=
    next?_eq_none_iff.1 (isEnded_iff.1 hended).1 hfailure
  have heach : ∀ k (hk : k < pool.collected.length), ∃ hn : k < n,
      (work ⟨k, hn⟩).2 = .ok pool.collected[k] := by
    intro k hk
    obtain ⟨hn, hcollected⟩ := h.collected k hk
    exact ⟨hn, (h.finished _ _ hcollected).symm⟩
  refine ⟨?_, heach⟩
  by_contra hne
  obtain ⟨hn, _⟩ := heach n (by omega)
  exact absurd hn (lt_irrefl n)

/-- Then every task has logged its lines, in whatever order. -/
theorem IsSound.log_of_isEnded (h : IsSound work pool) (hended : pool.isEnded)
    (hfailure : pool.failure = none) :
    (pool.log : Multiset Log.Line) = ∑ place, ((work place).1 : Multiset Log.Line) := by
  have hlength := (h.collected_of_isEnded hended hfailure).1
  rw [h.logged]
  refine Finset.sum_congr rfl fun place _ => ?_
  obtain ⟨_, hfinished⟩ := h.collected place (by omega)
  rw [hfinished]
  rfl

/-! ## Tasks in turn -/

/-- The next task is scanned at once and its result collected. -/
theorem run_next (work : Fin n → List Log.Line × Except Raised (List Entry)) {place : Fin n}
    (hnext : pool.next? = some place) (hwaiting : pool.task place = .waiting)
    (hthreads : pool.busy < threads) :
    pool.run work threads [.takeUp place, .finish place, .collect] =
      some (match (work place).2 with
        | .ok found => (pool.finish place (work place)).accept found
        | .error raised => (pool.finish place (work place)).abandon raised) := by
  have htake : pool.step work threads (.takeUp place) = some (pool.setTask place .running) := by
    simp only [step, hwaiting, hthreads, ↓reduceIte]
  have hfinish : (pool.setTask place .running).step work threads (.finish place) =
      some (pool.finish place (work place)) := by
    simp only [step, setTask_task_self, finish, setTask_setTask]
    rfl
  have hstill : (pool.finish place (work place)).next? = some place := hnext
  have htask : (pool.finish place (work place)).task place = .finished (work place).2 :=
    setTask_task_self ..
  rw [run_cons, htake, Option.bind_some, run_cons, hfinish, Option.bind_some, run_cons]
  simp only [step, hstill, htask]
  cases (work place).2 <;> rfl

end Pool

end BinaryStrings.Extraction

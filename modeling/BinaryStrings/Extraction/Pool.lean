import BinaryStrings.Extraction.Basic

/-!
# Extraction by several threads

The sections of a list of labels are scanned by a pool of threads.  A thread that is free takes up a
task that waits and finishes it some time later, while the caller collects the results in the order of
the labels.  When it collects a failure, it cancels the tasks that still wait; it ends when no thread
is at work any more.

Which thread is how fast is not for the program to decide.  A *schedule* says in which order these
events happen, and everything here depends on it.
-/

namespace BinaryStrings.Extraction

/-- How far the scan of a section has come. -/
inductive Task where
  | waiting
  | running
  | finished (outcome : Except Raised (List Entry))
  | cancelled
  deriving Repr

/-- Whether a thread is at work on a task. -/
def Task.isRunning : Task → Bool
  | .running => true
  | _ => false

/-- A task after the caller has collected a failure. -/
def Task.cancel : Task → Task
  | .waiting => .cancelled
  | task => task

/-- The tasks for `n` labels by their places, the results that the caller has collected, the failure
among them, and the lines logged. -/
structure Pool (n : Nat) where
  task : Fin n → Task
  collected : List (List Entry)
  failure : Option Raised
  log : List Log.Line

/-- What can happen next. -/
inductive Event (n : Nat) where
  /-- A thread takes up the task at a place. -/
  | takeUp (place : Fin n)
  /-- A thread finishes the task at a place. -/
  | finish (place : Fin n)
  /-- The caller collects the next result. -/
  | collect
  deriving DecidableEq, Repr

namespace Pool

variable {n : Nat}

/-- All tasks wait. -/
def start : Pool n := ⟨fun _ => .waiting, [], none, []⟩

/-- The pool with another task at a place. -/
def setTask (pool : Pool n) (place : Fin n) (task : Task) : Pool n :=
  { pool with task := fun other => if other = place then task else pool.task other }

/-- The pool after a thread has finished the task at a place: what it has logged and what it results
in. -/
def finish (pool : Pool n) (place : Fin n) (done : List Log.Line × Except Raised (List Entry)) :
    Pool n :=
  { pool.setTask place (.finished done.2) with log := pool.log ++ done.1 }

/-- The pool after the caller has collected entries. -/
def accept (pool : Pool n) (found : List Entry) : Pool n :=
  { pool with collected := pool.collected ++ [found] }

/-- The pool after the caller has collected a failure. -/
def abandon (pool : Pool n) (raised : Raised) : Pool n :=
  { pool with task := fun place => (pool.task place).cancel, failure := some raised }

/-- The number of threads at work. -/
def busy (pool : Pool n) : Nat :=
  (List.finRange n).countP fun place => (pool.task place).isRunning

/-- The place of the result that the caller collects next. -/
def next? (pool : Pool n) : Option (Fin n) :=
  if h : pool.failure = none ∧ pool.collected.length < n then some ⟨_, h.2⟩ else none

/-- The pool after an event, if the event can happen.  Of the threads at most `threads` are at work
at a time; `work` is what a task logs and results in. -/
def step (work : Fin n → List Log.Line × Except Raised (List Entry)) (threads : Nat)
    (pool : Pool n) : Event n → Option (Pool n)
  | .takeUp place =>
    match pool.task place with
    | .waiting => if pool.busy < threads then some (pool.setTask place .running) else none
    | _ => none
  | .finish place =>
    match pool.task place with
    | .running => some (pool.finish place (work place))
    | _ => none
  | .collect =>
    match pool.next? with
    | none => none
    | some place =>
      match pool.task place with
      | .finished (.ok found) => some (pool.accept found)
      | .finished (.error raised) => some (pool.abandon raised)
      | _ => none

/-- The pool after the events of a schedule, if they can happen in this order. -/
def run (work : Fin n → List Log.Line × Except Raised (List Entry)) (threads : Nat)
    (pool : Pool n) (schedule : List (Event n)) : Option (Pool n) :=
  schedule.foldlM (step work threads) pool

/-- Whether the caller has nothing to collect any more and no thread is at work. -/
def isEnded (pool : Pool n) : Bool :=
  pool.next?.isNone && pool.busy == 0

/-- The failure collected, or the entries of all results in the order of their labels. -/
def outcome (pool : Pool n) : Except Raised (List Entry) :=
  match pool.failure with
  | some raised => .error raised
  | none => .ok pool.collected.flatten

end Pool

/-! ## Extraction under a schedule -/

/-- The scan of the section at a place of a list of labels. -/
def scanAt (source : Source) (minLength : Int) (labels : List String)
    (place : Fin labels.length) : List Log.Line × Except Raised (List Entry) :=
  scanSection minLength (labels.get place) (source.sectionAt (labels.get place))

/-- No more threads than workers are asked for, and than there are sections. -/
def threadsFor (workers : Int) (labels : List String) : Nat :=
  min workers.toNat labels.length

/-- The pool after the events of a schedule for the sections of a list of labels. -/
def poolAfter (source : Source) (minLength workers : Int) (labels : List String)
    (schedule : List (Event labels.length)) : Option (Pool labels.length) :=
  Pool.start.run (scanAt source (effectiveLength minLength) labels) (threadsFor workers labels)
    schedule

/-- The report of what was found in the sections of a list of labels, and what is to be logged. -/
def conclude (labels : List String) :
    List Log.Line × Except Raised (List Entry) → List Log.Line × Except Error Report
  | (lines, .error raised) => (lines, .error (.failure raised))
  | (lines, .ok found) =>
    let report := Report.ofFindings found
    let summary :=
      s!"Extracted {report.count} unique strings from {labels.length} sections ({found.length} before dedup)."
    (lines ++ [Log.info summary], .ok report)

/-- An extraction whose threads follow a schedule, if the schedule leads to an end.  One worker and one
section need no pool. -/
def extractBy (source : Source) (minLength workers : Int) (labels : List String)
    (schedule : List (Event labels.length)) : Option (List Log.Line × Except Error Report) :=
  if workers < 1 then some ([], .error (.workers workers))
  else if workers = 1 ∨ labels.length < 2 then
    some (conclude labels (scanSections source (effectiveLength minLength) labels))
  else
    match poolAfter source minLength workers labels schedule with
    | none => none
    | some pool =>
      if pool.isEnded then some (conclude labels (pool.log, pool.outcome)) else none

end BinaryStrings.Extraction

import DagScheduler.Graphs.Task
import DagScheduler.Library.Transitions

/-! `InterruptibleTaskThread`: the object, the threads it started, and the client that calls it.

A step is one access to what other threads see: an atomic, a section under `task_lock_`, a start, a
wait or a wakeup of a thread. Stages run as long as they like; what `run` and `end` return is part of
the label. -/

namespace DagScheduler.Scheduling

open Graphs Library.Transitions

/-- A task on the heap. The ticket tells it from the others: its place among the calls of
`queue_task`. -/
structure Job (σ π : Type) where
  ticket : ℕ
  task : Task σ π

/-- The process is gone, or the language does not say what happens next. -/
inductive Fault where
  | terminated
  | undefined
  deriving DecidableEq

inductive StagePc where
  | next (k : ℕ)
  /-- `run` of stage `k` is in progress, and `task_lock_` is held. -/
  | inStage (k : ℕ)
  | ranStage (k : ℕ) (status : Bool)
  | visited (k : ℕ) (cont : Bool)
  | allOf (ranAll : Bool)
  deriving DecidableEq

inductive WorkerPc (σ π : Type) where
  | created
  | started
  | notified
  | occupied
  | running
  | iterating (ticket : ℕ) (pc : StagePc)
  | iterated (allRan : Bool)
  | holding (tmp : Option (Job σ π)) (allRan : Bool)
  | stopped (tmp : Option (Job σ π)) (allRan : Bool)
  | finished

inductive CallPc where
  | idle
  | stored
  | spawned (w : ℕ)
  | assigned (w : ℕ)
  | waiting (w : ℕ)
  | woken (w : ℕ)
  | stopping
  | killing
  /-- `task_lock_` is held, and `task_` was seen to be set. -/
  | reaching
  | interrupting
  | joining
  deriving DecidableEq

/-- The worker whose function refers to the locals of the call: `thread_started`, `return_cond`. -/
def CallPc.frame : CallPc → Option ℕ
  | spawned w | assigned w | waiting w | woken w => some w
  | _ => none

structure Completion (π : Type) where
  ticket : ℕ
  status : Bool
  notified : List (Notification π)

structure TaskThread (σ π : Type) where
  task : Option (Job σ π)
  taskLock : Bool
  /-- The argument of the call of `set_interrupt` that holds `task_lock_` and saw `task_` to be set. -/
  reached : Option Bool
  interrupt : Bool
  running : Bool
  /-- The worker that `thread_` would join. -/
  thread : Option ℕ
  workers : List (WorkerPc σ π)
  call : CallPc
  /-- Calls of `set_interrupt` that have not stored to `interrupt_` yet. -/
  interrupts : List Bool
  fault : Option Fault
  /-- The calls of `set_task_and_run` since the construction or the last `shutdown`. -/
  uses : ℕ
  stagesRun : List (ℕ × ℕ)
  completions : List (Completion π)

namespace TaskThread

inductive Action (σ π : Type) where
  | setTaskAndRun (task : Option (Job σ π))
  | shutdown
  | proceed
  /-- A wakeup without a notification. -/
  | wake
  | work (w : ℕ) (outcome : Bool)
  | setInterrupt (shouldInterrupt : Bool)
  /-- The call that holds `task_lock_` calls `kill`, and unlocks. -/
  | kill
  | storeInterrupt (n : ℕ)

variable {σ π : Type}

def init : TaskThread σ π where
  task := none
  taskLock := false
  reached := none
  interrupt := false
  running := false
  thread := none
  workers := []
  call := .idle
  interrupts := []
  fault := none
  uses := 0
  stagesRun := []
  completions := []

def goto (this : TaskThread σ π) (w : ℕ) (pc : WorkerPc σ π) : TaskThread σ π :=
  { this with workers := this.workers.set w pc }

def fail (this : TaskThread σ π) (f : Fault) : TaskThread σ π := { this with fault := some f }

def locked (this : TaskThread σ π) : Bool :=
  this.taskLock || this.reached.isSome || this.call = .reaching

/-- The call in `(task_ != nullptr) ? task_->kill() : true`. It reads `task_` again, and a worker moves
`task_` out without `task_lock_`. -/
def killTask (this : TaskThread σ π) : TaskThread σ π :=
  match this.task with
  | none => this.fail .undefined
  | some job => { this with task := some { job with task := job.task.killed } }

/-- One step of the call: of `set_task_and_run` from the construction of the thread on, or of
`shutdown`. -/
def proceed (this : TaskThread σ π) : Option (TaskThread σ π) :=
  match this.call with
  | .stored =>
    some { this with workers := this.workers ++ [.created], call := .spawned this.workers.length }
  | .spawned w =>
    -- The assignment to a joinable `std::thread`.
    if this.thread.isSome then some (this.fail .terminated)
    else some { this with thread := some w, call := .assigned w }
  | .assigned w => some { this with call := .waiting w }
  | .woken _ => some { this with call := .idle }
  | .stopping => some { this with call := if this.running then .killing else .joining }
  | .killing =>
    if this.locked then none
    else some { this with call := if this.task.isSome then .reaching else .interrupting }
  | .reaching => some { this.killTask with call := .interrupting }
  | .interrupting => some { this with interrupt := true, call := .joining }
  | .joining =>
    match this.thread with
    | none => some { this with call := .idle, uses := 0 }
    | some w =>
      match this.workers[w]? with
      | some .finished => some { this with thread := none, call := .idle, uses := 0 }
      | _ => none
  | .idle | .waiting _ => none

def iterateStages (this : TaskThread σ π) (w : ℕ) (job : Job σ π) (outcome : Bool) :
    StagePc → Option (TaskThread σ π)
  | .next k =>
    if k < job.task.stages.length then
      if this.locked then none
      else some { this.goto w (.iterating job.ticket (.inStage k)) with
        taskLock := true, stagesRun := this.stagesRun ++ [(job.ticket, k)] }
    else some (this.goto w (.iterating job.ticket (.allOf true)))
  | .inStage k =>
    some { this.goto w (.iterating job.ticket (.ranStage k outcome)) with taskLock := false }
  | .ranStage k status =>
    some (this.goto w (.iterating job.ticket (.visited k (status && !this.interrupt))))
  | .visited k cont =>
    -- `end` is called only if the stage ran, and `kill_` is read after it.
    if cont && outcome && !job.task.kill then
      some (this.goto w (.iterating job.ticket (.next (k + 1))))
    else some (this.goto w (.iterating job.ticket (.allOf false)))
  | .allOf ranAll =>
    some { this.goto w (.iterated ranAll) with
      task := some { job with task := { job.task with iterating := false } } }

/-- One step of worker `w`. It does not hold `task_lock_` outside the stages. -/
def work (this : TaskThread σ π) (w : ℕ) (outcome : Bool) : Option (TaskThread σ π) :=
  match this.workers[w]? with
  | none | some .finished => none
  | some .created =>
    if this.call.frame = some w then some (this.goto w .started) else some (this.fail .undefined)
  | some .started =>
    -- Nobody hears a notification that comes before the wait.
    if this.call = .waiting w then some { this.goto w .notified with call := .woken w }
    else if this.call.frame = some w then some (this.goto w .notified)
    else some (this.fail .undefined)
  | some .notified => some (this.goto w (if this.task.isSome then .occupied else .finished))
  | some .occupied => some { this.goto w .running with running := true }
  | some .running =>
    match this.task with
    | none => some (this.fail .undefined)
    | some job =>
      if job.task.iterating then some (this.goto w (.iterated false))
      else some { this.goto w (.iterating job.ticket (.next 0)) with
        task := some { job with task := { job.task with iterating := true } } }
  | some (.iterating ticket pc) =>
    match this.task with
    | none => some (this.fail .undefined)
    | some job =>
      if job.ticket = ticket then this.iterateStages w job outcome pc else some (this.fail .undefined)
  | some (.iterated allRan) => some { this.goto w (.holding this.task allRan) with task := none }
  | some (.holding tmp allRan) => some { this.goto w (.stopped tmp allRan) with running := false }
  | some (.stopped tmp allRan) =>
    match tmp with
    | none => some (this.fail .undefined)
    | some job => some { this.goto w .finished with
        completions := this.completions ++ [⟨job.ticket, allRan, job.task.complete allRan⟩] }

def step (this : TaskThread σ π) (a : Action σ π) : Option (TaskThread σ π) :=
  if this.fault.isSome then none
  else match a with
  | .setTaskAndRun task =>
    if this.call = .idle ∧ this.locked = false then
      some { this with task := task, call := .stored, uses := this.uses + 1 }
    else none
  | .shutdown => if this.call = .idle then some { this with call := .stopping } else none
  | .proceed => this.proceed
  | .wake =>
    match this.call with
    | .waiting w => some { this with call := .woken w }
    | _ => none
  | .work w outcome => this.work w outcome
  | .setInterrupt b =>
    if this.locked then none
    else if this.task.isSome then some { this with reached := some b }
    else some { this with interrupts := this.interrupts ++ [b] }
  | .kill =>
    match this.reached with
    | none => none
    | some b => some { this.killTask with reached := none, interrupts := this.interrupts ++ [b] }
  | .storeInterrupt n =>
    match this.interrupts[n]? with
    | none => none
    | some b => some { this with interrupt := b, interrupts := this.interrupts.eraseIdx n }

def system : System (TaskThread σ π) (Action σ π) := ⟨init, step⟩

end TaskThread

end DagScheduler.Scheduling

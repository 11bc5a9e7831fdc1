import DagScheduler.Scheduling.TaskThread

/-! `TaskScheduler`: the queue, the calls of `startup` and the pool.

Clients call from any number of threads, and may call `startup` while an earlier call still runs. -/

namespace DagScheduler.Scheduling

open Graphs Library.Transitions

inductive LoopPc where
  | starting
  | unpaused
  /-- `while (!kill_.load())`. -/
  | outer
  | checkKill
  | checkPause
  | polling
  /-- The top of `while (true)`, with a task popped. -/
  | inner
  | innerPause
  /-- In `first_unused_thread`. -/
  | locking
  | scanning (k : Fin 10)
  | found (k : Fin 10)
  | acquiring (k : Fin 10)
  /-- `thread_pool_lock_` is held to start thread `k`. -/
  | locked (k : Fin 10)
  | dispatching (k : Fin 10)
  | returned
  deriving DecidableEq

structure Startup (σ π : Type) where
  pc : LoopPc
  nextTask : Option (Job σ π)

structure Dispatch where
  loop : ℕ
  thread : Fin 10
  ticket : ℕ
  deriving DecidableEq

structure TaskScheduler (σ π : Type) where
  queue : List (Option (Job σ π))
  pause : Bool
  kill : Bool
  threadPool : Fin 10 → TaskThread σ π
  threadPoolLock : Bool
  startups : List (Startup σ π)
  /-- Calls of `shutdown` that have not stored to `kill_` yet. -/
  shutdowns : ℕ
  fault : Option Fault
  /-- What `queue_task` was given, in order; tickets are places in this list. -/
  queued : List (Option (Task σ π))
  dispatched : List Dispatch
  /-- Popped tasks that were destroyed because `kill_` was seen before the dispatch. -/
  discarded : List ℕ
  removed : List ℕ

def Job.Named {σ π : Type} (u : UUID) (job : Job σ π) : Bool := job.task.uuid.asString == u.asString

def Job.tickets {σ π : Type} (l : List (Option (Job σ π))) : List ℕ :=
  l.flatMap fun p => (p.map Job.ticket).toList

namespace TaskScheduler

inductive Action (σ π : Type) where
  | queueTask (t : Option (Task σ π))
  | killTask (u : UUID)
  | pause
  | resume
  | shutdown
  | storeKill
  | startup
  | loop (i : ℕ)
  | wake (k : Fin 10)
  | work (k : Fin 10) (w : ℕ) (outcome : Bool)

variable {σ π : Type}

def init : TaskScheduler σ π where
  queue := []
  pause := true
  kill := true
  threadPool _ := .init
  threadPoolLock := false
  startups := []
  shutdowns := 0
  fault := none
  queued := []
  dispatched := []
  discarded := []
  removed := []

def Alive (s : TaskScheduler σ π) : Prop := s.fault = none ∧ ∀ k, (s.threadPool k).fault = none

instance (s : TaskScheduler σ π) : Decidable s.Alive :=
  inferInstanceAs (Decidable (_ ∧ _))

def put (s : TaskScheduler σ π) (i : ℕ) (l : Startup σ π) : TaskScheduler σ π :=
  { s with startups := s.startups.set i l }

def setThread (s : TaskScheduler σ π) (k : Fin 10) (t : TaskThread σ π) : TaskScheduler σ π :=
  { s with threadPool := Function.update s.threadPool k t }

/-- `queue_.remove_task_from_queue`: every entry is looked at, and dereferenced. -/
def killTask (s : TaskScheduler σ π) (u : UUID) : TaskScheduler σ π :=
  if s.queue.any Option.isNone then { s with fault := some .undefined }
  else { s with
    queue := s.queue.filter fun e => !e.any (Job.Named u)
    removed := s.removed ++ Job.tickets (s.queue.filter fun e => e.any (Job.Named u)) }

/-- `break` out of `while (true)`: the scope of `next_task` ends. -/
def leave (s : TaskScheduler σ π) (i : ℕ) (l : Startup σ π) : TaskScheduler σ π :=
  { s.put i ⟨.outer, none⟩ with discarded := s.discarded ++ Job.tickets [l.nextTask] }

def loop (s : TaskScheduler σ π) (i : ℕ) (l : Startup σ π) : Option (TaskScheduler σ π) :=
  let goto (pc : LoopPc) : Startup σ π := { l with pc := pc }
  match l.pc with
  | .starting => some { s.put i (goto .unpaused) with pause := false }
  | .unpaused => some { s.put i (goto .outer) with kill := false }
  | .outer => some (s.put i (goto (if s.kill then .returned else .checkKill)))
  | .checkKill => some (s.put i (goto (if s.kill then .outer else .checkPause)))
  | .checkPause => some (s.put i (goto (if s.pause then .outer else .polling)))
  | .polling =>
    match s.queue with
    -- `wait_for_and_pop` timed out.
    | [] => some (s.put i (goto .outer))
    | none :: rest => some { s.put i (goto .outer) with queue := rest }
    | some job :: rest => some { s.put i ⟨.inner, some job⟩ with queue := rest }
  | .inner => some (if s.kill then s.leave i l else s.put i (goto .innerPause))
  | .innerPause => some (s.put i (goto (if s.pause then .inner else .locking)))
  | .locking =>
    if s.threadPoolLock then none
    else some { s.put i (goto (.scanning 0)) with threadPoolLock := true }
  | .scanning k =>
    if (s.threadPool k).running then
      if h : k.val + 1 < 10 then some (s.put i (goto (.scanning ⟨k.val + 1, h⟩)))
      else some { s.put i (goto .inner) with threadPoolLock := false }
    else some { s.put i (goto (.found k)) with threadPoolLock := false }
  | .found k => some (if s.kill then s.leave i l else s.put i (goto (.acquiring k)))
  | .acquiring k =>
    if s.threadPoolLock then none
    else some { s.put i (goto (.locked k)) with threadPoolLock := true }
  | .locked k =>
    match l.nextTask with
    | none => some { s.put i (goto .inner) with threadPoolLock := false }
    | some job =>
      ((s.threadPool k).step (.setTaskAndRun (some job))).map fun t =>
        { (s.put i ⟨.dispatching k, none⟩).setThread k t with
          dispatched := s.dispatched ++ [⟨i, k, job.ticket⟩] }
  | .dispatching k =>
    ((s.threadPool k).step .proceed).map fun t =>
      if t.call = .idle then
        { (s.put i (goto .inner)).setThread k t with threadPoolLock := false }
      else s.setThread k t
  | .returned => none

def step (s : TaskScheduler σ π) (a : Action σ π) : Option (TaskScheduler σ π) :=
  if ¬ s.Alive then none
  else match a with
  | .queueTask t => some { s with
      queue := s.queue ++ [t.map fun t => ⟨s.queued.length, t⟩], queued := s.queued ++ [t] }
  | .killTask u => some (s.killTask u)
  | .pause => some { s with pause := true }
  | .resume => some { s with pause := false }
  | .shutdown => some { s with pause := true, shutdowns := s.shutdowns + 1 }
  | .storeKill =>
    if s.shutdowns = 0 then none else some { s with kill := true, shutdowns := s.shutdowns - 1 }
  | .startup => some { s with startups := s.startups ++ [⟨.starting, none⟩] }
  | .loop i => s.startups[i]?.bind (s.loop i)
  | .wake k => ((s.threadPool k).step .wake).map (s.setThread k)
  | .work k w outcome => ((s.threadPool k).step (.work w outcome)).map (s.setThread k)

def system : System (TaskScheduler σ π) (Action σ π) := ⟨init, step⟩

end TaskScheduler

end DagScheduler.Scheduling

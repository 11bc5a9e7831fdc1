import DagScheduler.Library.Compaction
import DagScheduler.Scheduling.Scheduler

/-! `ConcurrentTaskQueue`. Each member function is one section under `mutex_`; the waits of
`wait_and_pop` and `wait_for_and_pop` give the mutex back until they end. -/

namespace DagScheduler.Scheduling

open Graphs Library.Compaction Library.Transitions

structure ConcurrentTaskQueue (σ π : Type) where
  queue : List (Option (Job σ π))

namespace ConcurrentTaskQueue

variable {σ π : Type}

def size (q : ConcurrentTaskQueue σ π) : ℕ := q.queue.length

def push (q : ConcurrentTaskQueue σ π) (data : Option (Job σ π)) : ConcurrentTaskQueue σ π := ⟨q.queue ++ [data]⟩

def empty (q : ConcurrentTaskQueue σ π) : Bool := q.queue.isEmpty

def clear (_ : ConcurrentTaskQueue σ π) : ConcurrentTaskQueue σ π := ⟨[]⟩

/-- What is returned, the queue, and the output argument. -/
def tryPop (q : ConcurrentTaskQueue σ π) (poppedValue : Option (Job σ π)) :
    Bool × ConcurrentTaskQueue σ π × Option (Job σ π) :=
  match q.queue with
  | [] => (false, q, poppedValue)
  | front :: rest => (true, ⟨rest⟩, front)

def waitAndPop (q : ConcurrentTaskQueue σ π) : Option (Option (Job σ π) × ConcurrentTaskQueue σ π) :=
  match q.queue with
  | [] => none
  | front :: rest => some (front, ⟨rest⟩)

/-- The wait ends with `queue_not_empty`, or at its time with the queue empty. -/
def waitForAndPop (q : ConcurrentTaskQueue σ π) (poppedValue : Option (Job σ π)) :
    Bool × ConcurrentTaskQueue σ π × Option (Job σ π) :=
  match q.queue with
  | [] => (false, q, poppedValue)
  | front :: rest => (true, ⟨rest⟩, front)

/-- The queue and `ret_ptr`; `none` where a null pointer is dereferenced. -/
def removeTaskFromQueue (q : ConcurrentTaskQueue σ π) (toRemove : UUID) (retPtr : Option (Job σ π)) :
    Option (ConcurrentTaskQueue σ π × Option (Job σ π)) :=
  if q.queue.isEmpty then some (q, retPtr)
  else (removeIf (Job.Named toRemove) q.queue retPtr).map fun r => (⟨r.slots.take r.last⟩, r.taken)

/-- The calls, with what is passed for their output arguments. -/
inductive Call (σ π : Type) where
  | push (t : Option (Task σ π))
  | size
  | empty
  | clear
  | tryPop (poppedValue : Option (Job σ π))
  | waitAndPop
  | waitForAndPop (poppedValue : Option (Job σ π))
  | removeTaskFromQueue (toRemove : UUID) (retPtr : Option (Job σ π))

inductive Reply (σ π : Type) where
  | done
  | size (n : ℕ)
  | empty (b : Bool)
  | popped (ret : Bool) (poppedValue : Option (Job σ π))
  | removed (retPtr : Option (Job σ π))

inductive Outcome (σ π : Type) where
  | waits
  | undefined
  | returns (reply : Reply σ π) (q : ConcurrentTaskQueue σ π)

/-- A call at the moment of its critical section; `ticket` tells a pushed task from the others. -/
def Call.run (ticket : ℕ) (q : ConcurrentTaskQueue σ π) : Call σ π → Outcome σ π
  | .push t => .returns .done (q.push (t.map fun t => ⟨ticket, t⟩))
  | .size => .returns (.size q.size) q
  | .empty => .returns (.empty q.empty) q
  | .clear => .returns .done q.clear
  | .tryPop v =>
    let (ret, q, v) := q.tryPop v
    .returns (.popped ret v) q
  | .waitAndPop =>
    match q.waitAndPop with
    | none => .waits
    | some (v, q) => .returns (.popped true v) q
  | .waitForAndPop v =>
    let (ret, q, v) := q.waitForAndPop v
    .returns (.popped ret v) q
  | .removeTaskFromQueue u r =>
    match q.removeTaskFromQueue u r with
    | none => .undefined
    | some (q, r) => .returns (.removed r) q

/-- What a pop that succeeded returned. -/
def Reply.returned : Reply σ π → List (Option (Job σ π))
  | .popped true v => [v]
  | _ => []

/-- A queue, what was pushed to it and what the pops returned, in order, and by which call a task
left it. -/
structure Shared (σ π : Type) where
  queue : ConcurrentTaskQueue σ π
  fault : Option Fault
  pushed : List (Option (Task σ π))
  returned : List (Option (Job σ π))
  exits : List (Call σ π × ℕ)

def Call.pushes : Call σ π → List (Option (Task σ π))
  | .push t => [t]
  | _ => []

/-- The tickets of the tasks that are in `q` and not in `q'`. -/
def left (q q' : ConcurrentTaskQueue σ π) : List ℕ :=
  (Job.tickets q.queue).filter fun n => n ∉ Job.tickets q'.queue

def Shared.step (s : Shared σ π) (call : Call σ π) : Option (Shared σ π) :=
  if s.fault.isSome then none
  else match call.run s.pushed.length s.queue with
  | .waits => none
  | .undefined => some { s with fault := some .undefined }
  | .returns reply q => some
    { s with
      queue := q
      pushed := s.pushed ++ call.pushes
      returned := s.returned ++ reply.returned
      exits := s.exits ++ (left s.queue q).map (call, ·) }

def system : System (Shared σ π) (Call σ π) := ⟨⟨⟨[]⟩, none, [], [], []⟩, Shared.step⟩

end ConcurrentTaskQueue

end DagScheduler.Scheduling

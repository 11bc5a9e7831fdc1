import DagScheduler.Graphs.Algorithms
import DagScheduler.GraphProofs.WellFormed
import DagScheduler.Scheduling.Scheduler

/-! Calls of `process_dag` that feed a scheduler: each sorts its graph and then queues its tasks one
by one, while other threads go on. -/

namespace DagScheduler.Scheduling

open Graphs Library.Programs Library.Transitions

variable {σ π : Type}

/-- A graph that `process_dag` can be called on, and the memory it lives in. -/
structure Request (σ π : Type) where
  g : DAG
  memory : Memory σ π
  clonable : g.Clonable memory

def Request.pushes [TaskStage σ] [TaskCallbackPlugin π] (r : Request σ π) : TaskQueue σ π :=
  match (processDag false r.g.graph.length r.g [] []).run r.memory with
  | .ok ((_, _, queue), _) => queue
  | .error _ => []

structure Feeding (σ π : Type) where
  scheduler : TaskScheduler σ π
  /-- What each call of `process_dag` has still to queue. -/
  pending : List (TaskQueue σ π)

namespace Feeding

/-- `call` stands for everything else that moves the scheduler; clients queue no null pointer. -/
inductive Action (σ π : Type) where
  | processDag (r : Request σ π)
  | proceed (i : ℕ)
  | call (a : TaskScheduler.Action σ π)

variable [TaskStage σ] [TaskCallbackPlugin π]

def step (s : Feeding σ π) : Action σ π → Option (Feeding σ π)
  | .processDag r => some { s with pending := s.pending ++ [r.pushes] }
  | .proceed i =>
    match s.pending[i]? with
    | some (t :: rest) =>
      (s.scheduler.step (.queueTask t)).map fun scheduler => ⟨scheduler, s.pending.set i rest⟩
    | _ => none
  | .call (.queueTask none) => none
  | .call a => (s.scheduler.step a).map fun scheduler => { s with scheduler := scheduler }

def system : System (Feeding σ π) (Action σ π) := ⟨⟨.init, []⟩, step⟩

end Feeding

end DagScheduler.Scheduling

import DagScheduler.Library.Monitors
import DagScheduler.Scheduling.ConcurrentTaskQueue

/-! The queue with its `mutex_` and its `condition_variable_`: any number of threads that lock, wait,
are notified and unlock. -/

namespace DagScheduler.Scheduling.ConcurrentTaskQueue

open Graphs Library.Transitions Library.Monitors

variable {σ π : Type}

/-- `queue_not_empty`, where a call waits for it. -/
def Call.ready (q : ConcurrentTaskQueue σ π) : Call σ π → Bool
  | .waitAndPop | .waitForAndPop _ => !q.empty
  | _ => true

def Call.timed : Call σ π → Bool
  | .waitForAndPop _ => true
  | _ => false

def Call.notifies : Call σ π → Bool
  | .push _ | .clear => true
  | _ => false

/-- What a call does once it holds the mutex and has not to wait. -/
def Shared.act (s : Shared σ π) (call : Call σ π) : Option (Reply σ π × Shared σ π) :=
  match call.run s.pushed.length s.queue with
  | .returns reply q => some (reply, { s with
      queue := q
      pushed := s.pushed ++ call.pushes
      returned := s.returned ++ reply.returned
      exits := s.exits ++ (left s.queue q).map (call, ·) })
  | _ => none

lemma Shared.act_some {s s' : Shared σ π} {call : Call σ π} {reply : Reply σ π}
    (h : s.act call = some (reply, s')) : ∃ q, call.run s.pushed.length s.queue = .returns reply q ∧ s' = { s with
      queue := q
      pushed := s.pushed ++ call.pushes
      returned := s.returned ++ reply.returned
      exits := s.exits ++ (left s.queue q).map (call, ·) } := by
  unfold act at h
  cases hrun : call.run s.pushed.length s.queue with
  | returns reply' q =>
    simp only [hrun, Option.some.injEq, Prod.mk.injEq] at h
    obtain ⟨rfl, rfl⟩ := h
    exact ⟨q, rfl, rfl⟩
  | _ => simp [hrun] at h

/-- Only a push turns an empty queue into one that is not. -/
lemma notifies_of_filled {s s' : Shared σ π} {call d : Call σ π} {reply : Reply σ π}
    (h : s.act call = some (reply, s')) (hs : d.ready s.queue = false) (hs' : d.ready s'.queue = true) :
    call.notifies = true := by
  obtain ⟨q, hrun, rfl⟩ := Shared.act_some h
  have hempty : s.queue = ⟨[]⟩ := by
    cases hq : s.queue with
    | mk l => cases d <;> cases l <;> simp_all [Call.ready, ConcurrentTaskQueue.empty]
  rw [hempty] at hs hrun
  have hfilled : q.queue ≠ [] := by
    rintro hq
    cases d <;> simp_all [Call.ready, ConcurrentTaskQueue.empty]
  cases call with
  | push | clear => rfl
  | waitAndPop => simp [Call.run, ConcurrentTaskQueue.waitAndPop] at hrun
  | removeTaskFromQueue u r =>
    simp only [Call.run, removeTaskFromQueue, List.isEmpty_nil, if_true, Outcome.returns.injEq] at hrun
    exact absurd (congrArg ConcurrentTaskQueue.queue hrun.2).symm hfilled
  | _ =>
    simp only [Call.run, ConcurrentTaskQueue.tryPop, ConcurrentTaskQueue.waitForAndPop, Outcome.returns.injEq] at hrun
    exact absurd (congrArg ConcurrentTaskQueue.queue hrun.2).symm hfilled

def monitor : Monitor (Shared σ π) (Call σ π) (Reply σ π) where
  start := system.start
  ready s call := call.ready s.queue
  timed := Call.timed
  body := Shared.act
  notifies := Call.notifies
  signals _ _ _ _ _ := notifies_of_filled

end DagScheduler.Scheduling.ConcurrentTaskQueue

import DagScheduler.Scheduling.QueueMonitor
import DagScheduler.SchedulingProofs.QueueProofs

/-! With its mutex and its condition variable the queue is the one whose calls happen at once, and no
pop waits for a task that is there. -/

namespace DagScheduler.Scheduling.ConcurrentTaskQueue

open Graphs Library.Transitions Library.Monitors

variable {σ π ι : Type} [DecidableEq ι] {s t : Execution ι (Shared σ π) (Call σ π) (Reply σ π)}
  {x : Shared σ π} {call : Call σ π}

/-- A call that takes effect, with what it returns. -/
def Shared.answer (e : Shared σ π × Call σ π) : Call σ π × Option (Reply σ π) := (e.2, (e.1.act e.2).map Prod.fst)

/-- The calls of all threads take effect one after the other, in `s.done`; of each thread all that it
made but the last have, and all that returned gave their results. -/
structure Linearized (s : Execution ι (Shared σ π) (Call σ π) (Reply σ π)) : Prop where
  mutex : ∀ i, (s.threads i).holds = true ↔ s.owner = some i
  atomic : ∃ h, system.Run h s.shared ∧ h.map Shared.answer = s.done.map fun e => (e.2.1, some e.2.2)
  called : ∀ i, Monitor.ofThread i s.called = (Monitor.ofThread i s.done).map Prod.fst ++ (s.threads i).pending.toList
  returned : ∀ i, (Monitor.ofThread i s.done).map Prod.snd =
    Monitor.ofThread i s.returned ++ (s.threads i).result.toList

lemma Shared.step_of_act {reply : Reply σ π} {y : Shared σ π} (hf : x.fault = none)
    (h : x.act call = some (reply, y)) :
    x.step call = some y ∧ y.fault = none := by
  obtain ⟨q, hrun, rfl⟩ := Shared.act_some h
  simp [Shared.step, hf, hrun]

omit [DecidableEq ι] in
lemma atomic_run {h : List ((Shared σ π × List (ι × Call σ π × Reply σ π)) × (ι × Call σ π))}
    {y : Shared σ π × List (ι × Call σ π × Reply σ π)} (run : (monitor.atomic ι).Run h y) :
    y.1.fault = none ∧ ∃ h', system.Run h' y.1 ∧ h'.map Shared.answer = y.2.map fun e => (e.2.1, some e.2.2) := by
  induction run with
  | start => exact ⟨rfl, [], .start, rfl⟩
  | @step h y z a run hs ih =>
    obtain ⟨hf, h', hrun, hmap⟩ := ih
    simp only [Monitor.atomic, Option.ite_none_right_eq_some, Option.map_eq_some_iff] at hs
    obtain ⟨-, ⟨reply, w⟩, hact, rfl⟩ := hs
    obtain ⟨hstep, hf'⟩ := Shared.step_of_act hf hact
    refine ⟨hf', _, hrun.step hstep, ?_⟩
    have hact' : y.1.act a.2 = some (reply, w) := hact
    simp [hmap, Shared.answer, hact']

/-- The locked queue is linearizable: at every moment its contents and its results are those of the
calls made at once, in an order that only grows. -/
theorem linearizable (hr : (monitor.system ι).Reachable s) : Linearized s ∧
    ∀ P t, (monitor.system ι).Leads P s t → s.done <+: t.done := by
  obtain ⟨h, run⟩ := (monitor.linearization ι).reachable hr
  have hsound := Monitor.sound hr
  exact ⟨⟨hsound.mutex, (atomic_run run).2, hsound.called, hsound.returned⟩, fun _ _ hl => Monitor.done_grows hl⟩

def Call.Pops (call : Call σ π) : Prop := call = .waitAndPop ∨ ∃ poppedValue, call = .waitForAndPop poppedValue

lemma empty_of_not_ready {q : ConcurrentTaskQueue σ π} (h : call.ready q = false) : call.Pops ∧ q.queue = [] := by
  cases call <;> simp_all [Call.Pops, Call.ready, ConcurrentTaskQueue.empty]

lemma not_ready_of_waits {ticket : ℕ} {q : ConcurrentTaskQueue σ π} (h : call.run ticket q = .waits) :
    call.ready q = false ∧ call.timed = false := by
  obtain ⟨l⟩ := q
  cases call with
  | waitAndPop => cases l <;> simp_all [Call.run, ConcurrentTaskQueue.waitAndPop, Call.ready, Call.timed,
      ConcurrentTaskQueue.empty]
  | removeTaskFromQueue u r =>
    simp only [Call.run] at h
    split at h <;> simp at h
  | _ => simp [Call.run] at h

/-- Nothing is undefined unless a null pointer was pushed. -/
lemma pushed_null (hr : (monitor.system ι).Reachable s) (hf : s.fault = true) : none ∈ s.shared.pushed := by
  revert hf
  refine hr.induct (I := fun s => s.fault = true → none ∈ s.shared.pushed) (fun hf => ?_) fun s a t hr _ hs hf => ?_
  · exact absurd hf Bool.false_ne_true
  · obtain ⟨hold, hm⟩ := Monitor.step_moves hs
    cases hm with
    | @fail i c late hi hgoes hbody =>
      obtain ⟨h, run⟩ := (monitor.linearization ι).reachable hr
      obtain ⟨-, h', hrun, -⟩ := atomic_run run
      apply (fifo ⟨h', hrun⟩).nulls
      change s.shared.act c = none at hbody
      unfold Shared.act at hbody
      cases hout : c.run s.shared.pushed.length s.shared.queue with
      | returns reply q => simp [hout] at hbody
      | undefined => exact Call.run_undefined hout
      | waits =>
        obtain ⟨hready, htimed⟩ := not_ready_of_waits hout
        exact absurd hgoes (by simp [Monitor.goes, monitor, hready, htimed])
    | _ => exact absurd (hold.symm.trans hf) Bool.false_ne_true

/-- Threads that are let go on stop after finitely many steps, each outside of the queue or in a pop
that finds it empty: no wakeup is missed, and nobody holds the mutex for good. -/
theorem pops_served [Fintype ι] (hr : (monitor.system ι).Reachable s) : Acc monitor.Follows s ∧
    ∀ t, (monitor.system ι).Leads Action.internal s t → (∀ u, ¬ monitor.Follows u t) →
      none ∈ t.shared.pushed ∨
        ∀ i, t.threads i = .outside ∨ ∃ c, t.threads i = .blocked c ∧ c.Pops ∧ t.shared.queue.queue = [] := by
  refine ⟨Monitor.follows_acc s, fun t hl hlast => ?_⟩
  have hr' := hl.reachable hr
  cases hf : t.fault with
  | true => exact .inl (pushed_null hr' hf)
  | false =>
    right
    rcases Monitor.settled_or_proceeds hr' with hrest | ⟨i, u, hu⟩
    · refine fun i => (hrest i).imp id ?_
      rintro ⟨c, hc, hready⟩
      exact ⟨c, hc, empty_of_not_ready hready⟩
    · refine absurd ⟨i, ?_⟩ (hlast u)
      simpa [Monitor.step, hf] using hu

/-! One thread waits for the task that another pushes. -/

namespace Sample

def handover : List (Action Bool (Call Unit Unit)) :=
  [.call false .waitAndPop, .proceed false, .proceed false, .call true (.push (some Graphs.Sample.task₁)),
    .proceed true, .proceed true, .proceed true, .proceed true, .proceed false, .proceed false]

end Sample

theorem linearizable_sample : ∃ s, (monitor.system Bool).exec (monitor.system Bool).start Sample.handover = some s ∧
    s.done.map (fun e => e.1) = [true, false] ∧ s.returned.map (fun e => e.1) = [true] ∧ Linearized s := by
  have hany : ((monitor.system Bool).exec (monitor.system Bool).start Sample.handover).any (fun s =>
      s.done.map (fun e => e.1) = [true, false] ∧ s.returned.map (fun e => e.1) = [true]) = true := by
    decide +kernel
  obtain ⟨s, hs, hend⟩ := System.exec_any hany
  obtain ⟨hdone, hreturned⟩ := of_decide_eq_true hend
  exact ⟨s, hs, hdone, hreturned, (linearizable (System.exec_reachable hs)).1⟩

theorem pops_served_sample : ∃ s, (monitor.system Bool).exec (monitor.system Bool).start Sample.handover = some s ∧
    Acc monitor.Follows s ∧ ∀ t, (monitor.system Bool).Leads Action.internal s t → (∀ u, ¬ monitor.Follows u t) →
      none ∈ t.shared.pushed ∨
        ∀ i, t.threads i = .outside ∨ ∃ c, t.threads i = .blocked c ∧ c.Pops ∧ t.shared.queue.queue = [] := by
  have hany : ((monitor.system Bool).exec (monitor.system Bool).start Sample.handover).any (fun _ => true) =
    true := by
    decide +kernel
  obtain ⟨s, hs, -⟩ := System.exec_any hany
  exact ⟨s, hs, pops_served (System.exec_reachable hs)⟩

end DagScheduler.Scheduling.ConcurrentTaskQueue

import DagScheduler.SchedulingProofs.ReuseProofs
import DagScheduler.SchedulingProofs.DispatchProofs

/-! Who may touch what: the calls of `startup` in front of the pool, and the workers of one thread. -/

namespace DagScheduler.Scheduling

open Graphs Library.Transitions

variable {σ π : Type}

/-- `running_` is true from here until the task is taken. -/
def WorkerPc.runs : WorkerPc σ π → Bool
  | .running | .iterating _ _ | .iterated _ | .holding _ _ => true
  | _ => false

def WorkerPc.inStage : WorkerPc σ π → Bool
  | .iterating _ (.inStage _) => true
  | _ => false

namespace TaskThread

variable {t t' : TaskThread σ π} {w : ℕ} {outcome : Bool} {pc : WorkerPc σ π}

lemma Fits.flags (h : t.Fits pc) : t.taskLock = pc.inStage ∧ t.running = pc.runs := by
  cases pc with
  | created | started | notified => exact ⟨h.2, h.1⟩
  | occupied | running | iterated => exact ⟨h.2.2, h.2.1⟩
  | iterating ticket pc => cases pc <;> exact ⟨h.2.2, h.2.1⟩
  | holding | stopped => exact ⟨h.2.2.2, h.2.2.1⟩
  | finished => exact ⟨h.2.2, h.2.1⟩

/-- The worker that still goes on, if there is one. -/
lemma Shape.worker (h : t.Shape) (huses : t.uses ≤ 1) :
    (t.taskLock = false ∧ t.running = false ∧ ∀ pc ∈ t.workers, pc = .finished) ∨
      ∃ ws pc, t.workers = ws ++ [pc] ∧ (∀ p ∈ ws, p = .finished) ∧ t.Fits pc := by
  cases h with
  | quiet uses calm | stored uses calm => exact .inl ⟨calm.taskLock, calm.running, calm.workers⟩
  | single uses ws pc workers old fits => exact .inr ⟨ws, pc, workers, old, fits⟩
  | doomed uses => omega

lemma exists_worker_iff {ws : List (WorkerPc σ π)} {p : WorkerPc σ π → Bool} (hworkers : t.workers = ws ++ [pc])
    (hold : ∀ q ∈ ws, q = .finished) (hp : p .finished = false) :
    (∃ (w : ℕ) (q : WorkerPc σ π), t.workers[w]? = some q ∧ p q = true) ↔ p pc = true := by
  constructor
  · rintro ⟨w, q, hq, hpq⟩
    rcases append_cases (hworkers ▸ hq) with hws | ⟨-, rfl⟩
    · rw [hold q (List.mem_of_getElem? hws), hp] at hpq
      exact absurd hpq Bool.false_ne_true
    · exact hpq
  · exact fun h => ⟨ws.length, pc, by simp [hworkers], h⟩

/-- Whoever holds `task_lock_` holds it alone. -/
structure HeldOnce (t : TaskThread σ π) : Prop where
  stage : t.taskLock = true → t.Undisturbed
  interrupt : t.reached.isSome → t.call ≠ .reaching

lemma HeldOnce.keep (h : t.HeldOnce) (hlock : t'.taskLock = t.taskLock) (hreached : t'.reached = t.reached)
    (hcall : t'.call = .reaching → t.call = .reaching) : t'.HeldOnce where
  stage ht := ⟨hreached.trans (h.stage (hlock ▸ ht)).1, fun hc => (h.stage (hlock ▸ ht)).2 (hcall hc)⟩
  interrupt hr hc := h.interrupt (hreached ▸ hr) (hcall hc)

lemma HeldOnce.proceed (h : t.HeldOnce) (hs : t.proceed = some t') : t'.HeldOnce := by
  cases proceed_cases hs with
  | look hcall hlock =>
    obtain ⟨hstage, hreached, -⟩ := locked_eq_false.mp hlock
    exact ⟨fun ht => absurd (hstage.symm.trans ht) (by simp), fun hr => by simp [hreached] at hr⟩
  | kill job hcall => exact ⟨fun ht => absurd hcall (h.stage ht).2, by simp⟩
  | crash hcall => exact ⟨fun ht => absurd hcall (h.stage ht).2, by simp⟩
  | terminate => exact h.keep rfl rfl id
  | _ => exact h.keep rfl rfl (by simp)

lemma Works.heldOnce (hw : Works t w outcome pc t') (h : t.HeldOnce) : t'.HeldOnce := by
  cases hw with
  | stage job k task more lock =>
    obtain ⟨-, hreached, hcall⟩ := locked_eq_false.mp lock
    exact ⟨fun _ => ⟨hreached, hcall⟩, fun _ => hcall⟩
  | ran => exact ⟨by simp, h.interrupt⟩
  | notify => exact h.keep rfl rfl (by simp)
  | _ => exact h.keep rfl rfl id

lemma heldOnce (hr : system.Reachable t) : t.HeldOnce := by
  refine hr.invariant ⟨by simp [system, init], by simp [system, init]⟩ fun t a t' h hs => ?_
  cases step_acts hs with
  | set | shutdown | wake => exact h.keep rfl rfl (by simp)
  | proceed hs => exact h.proceed hs
  | work w outcome pc hpc hw => exact hw.heldOnce h
  | reach b hlock =>
    obtain ⟨hstage, -, hcall⟩ := locked_eq_false.mp hlock
    exact ⟨fun ht => absurd (hstage.symm.trans ht) (by simp), fun _ => hcall⟩
  | kill b job hreached => exact ⟨fun ht => absurd (hreached.symm.trans (h.stage ht).1) (by simp), by simp⟩
  | crash b hreached => exact ⟨fun ht => absurd (hreached.symm.trans (h.stage ht).1) (by simp), by simp⟩
  | skip | store => exact h.keep rfl rfl id

/-- As long as `thread_` is joined before it is used again, one worker at most is not at its end. It holds
`task_lock_` exactly while a stage runs, and then nobody else does, and `running_` says whether it is between
its start and the end of its task, which is the one in `task_`. -/
theorem one_worker (hr : system.Reachable t) (hf : t.fault = none) (huses : t.uses ≤ 1) :
    (∀ (i j : ℕ) (p q : WorkerPc σ π), t.workers[i]? = some p → t.workers[j]? = some q → p ≠ .finished →
      q ≠ .finished → i = j) ∧
    (t.taskLock = true ↔ ∃ (w : ℕ) (pc : WorkerPc σ π), t.workers[w]? = some pc ∧ pc.inStage = true) ∧
    (t.running = true ↔ ∃ (w : ℕ) (pc : WorkerPc σ π), t.workers[w]? = some pc ∧ pc.runs = true) ∧
    (∀ (w ticket : ℕ) (at' : StagePc), t.workers[w]? = some (.iterating ticket at') →
      t.task.map Job.ticket = some ticket) ∧ t.HeldOnce := by
  rcases ((sound hr).shape hf).worker huses with ⟨hlock, hrunning, hend⟩ | ⟨ws, pc, hworkers, hold, hfits⟩
  · have hnone : ∀ p : WorkerPc σ π → Bool, p .finished = false →
        ¬ ∃ (w : ℕ) (q : WorkerPc σ π), t.workers[w]? = some q ∧ p q = true := by
      rintro p hp ⟨w, q, hq, hpq⟩
      rw [hend q (List.mem_of_getElem? hq), hp] at hpq
      exact Bool.false_ne_true hpq
    refine ⟨fun i j p q hi _ hp _ => absurd (hend p (List.mem_of_getElem? hi)) hp, ?_, ?_, fun w ticket at' hw => ?_,
      heldOnce hr⟩
    · exact iff_of_false (by simp [hlock]) (hnone _ rfl)
    · exact iff_of_false (by simp [hrunning]) (hnone _ rfl)
    · exact absurd (hend _ (List.mem_of_getElem? hw)) (by simp)
  · obtain ⟨hlock, hruns⟩ := hfits.flags
    have hlast : ∀ (i : ℕ) (p : WorkerPc σ π), t.workers[i]? = some p → p ≠ .finished → i = ws.length ∧ p = pc := by
      intro i p hi hp
      rcases append_cases (hworkers ▸ hi) with hws | hlast
      · exact absurd (hold p (List.mem_of_getElem? hws)) hp
      · exact hlast
    refine ⟨fun i j p q hi hj hp hq => ?_, ?_, ?_, fun w ticket at' hw => ?_, heldOnce hr⟩
    · exact (hlast i p hi hp).1.trans (hlast j q hj hq).1.symm
    · rw [hlock, exists_worker_iff hworkers hold rfl]
    · rw [hruns, exists_worker_iff hworkers hold rfl]
    · obtain ⟨-, rfl⟩ := hlast w _ hw (by simp)
      exact hfits.1

end TaskThread

namespace TaskScheduler

variable {s : TaskScheduler σ π}

/-- The lock of the pool is held by exactly one call of `startup` or by none, and only that one is in a call
of `set_task_and_run`, of one thread; and no call has a task before it popped one or after it gave it away. -/
theorem pool_guarded (hr : (system (σ := σ) (π := π)).Reachable s) :
    (s.threadPoolLock = true ↔ ∃! i : ℕ, ∃ l : Startup σ π, s.startups[i]? = some l ∧ l.pc.locks = true) ∧
    (∀ k, (s.threadPool k).call ≠ .idle ↔
      ∃ (i : ℕ) (l : Startup σ π), s.startups[i]? = some l ∧ l.pc = .dispatching k) ∧
    (∀ j k, (s.threadPool j).call ≠ .idle → (s.threadPool k).call ≠ .idle → j = k) ∧
    ∀ (i : ℕ) (l : Startup σ π), s.startups[i]? = some l → l.nextTask.isSome →
      l.pc.outside = false ∧ ∀ k, l.pc ≠ .dispatching k := by
  have hg := guarded hr
  have hcalling : ∀ (l : Startup σ π) k, l.pc.calling = some k ↔ l.pc = .dispatching k := by
    rintro ⟨pc, nextTask⟩ k
    cases pc <;> simp [LoopPc.calling]
  have hcall : ∀ k, (s.threadPool k).call ≠ .idle ↔
      ∃ (i : ℕ) (l : Startup σ π), s.startups[i]? = some l ∧ l.pc = .dispatching k := by
    intro k
    constructor
    · intro hne
      obtain ⟨i, l, hl, hk⟩ := hg.busy k hne
      exact ⟨i, l, hl, (hcalling l k).mp hk⟩
    · rintro ⟨i, l, hl, hpc⟩ hidle
      have hsetting := hg.calls i l k hl ((hcalling l k).mpr hpc)
      simp [hidle, CallPc.setting] at hsetting
  refine ⟨⟨fun hlock => ?_, fun h => ?_⟩, hcall, fun j k hj hk => ?_, fun i l hl hsome => ?_⟩
  · obtain ⟨i, l, hl, hlocks⟩ := held hr hlock
    refine ⟨i, ⟨l, hl, hlocks⟩, fun j hj => ?_⟩
    obtain ⟨l', hl', hlocks'⟩ := hj
    exact hg.one j i l' l hl' hl hlocks' hlocks
  · obtain ⟨i, ⟨l, hl, hlocks⟩, -⟩ := h
    exact hg.locked i l hl hlocks
  · obtain ⟨i, l, hl, hpc⟩ := (hcall j).mp hj
    obtain ⟨i', l', hl', hpc'⟩ := (hcall k).mp hk
    have hi := hg.one i i' l l' hl hl' (by rw [hpc]; rfl) (by rw [hpc']; rfl)
    subst hi
    obtain rfl := Option.some.inj (hl.symm.trans hl')
    exact LoopPc.dispatching.inj (hpc.symm.trans hpc')
  · have hne : ¬ l.nextTask = none := Option.isSome_iff_ne_none.mp hsome
    refine ⟨?_, fun k hpc => hne (hg.empty i l hl (.inr (by rw [hpc]; rfl)))⟩
    by_contra hout
    exact hne (hg.empty i l hl (.inl (by simpa using hout)))

theorem pool_guarded_sample :
    (Sample.dispatched.threadPoolLock = true ↔
      ∃! i : ℕ, ∃ l : Startup Unit Unit, Sample.dispatched.startups[i]? = some l ∧ l.pc.locks = true) ∧
    (∀ k, (Sample.dispatched.threadPool k).call ≠ .idle ↔
      ∃ (i : ℕ) (l : Startup Unit Unit), Sample.dispatched.startups[i]? = some l ∧ l.pc = .dispatching k) ∧
    (∀ j k, (Sample.dispatched.threadPool j).call ≠ .idle → (Sample.dispatched.threadPool k).call ≠ .idle → j = k) ∧
    ∀ (i : ℕ) (l : Startup Unit Unit), Sample.dispatched.startups[i]? = some l → l.nextTask.isSome →
      l.pc.outside = false ∧ ∀ k, l.pc ≠ .dispatching k :=
  pool_guarded Sample.dispatched_reachable

end TaskScheduler

namespace Sample

def inFirstStage : TaskThread Unit Unit :=
  (TaskThread.system.exec TaskThread.init ([.setTaskAndRun (some ⟨0, Graphs.Sample.task₁⟩)] ++
    List.replicate 3 .proceed ++ List.replicate 6 (.work 0 true))).get (by decide +kernel)

end Sample

theorem TaskThread.one_worker_sample : Sample.inFirstStage.taskLock = true ∧
    (Sample.inFirstStage.taskLock = true ↔
      ∃ (w : ℕ) (pc : WorkerPc Unit Unit), Sample.inFirstStage.workers[w]? = some pc ∧ pc.inStage = true) :=
  ⟨by decide +kernel, (TaskThread.one_worker (System.exec_reachable (Option.some_get _).symm) (by decide +kernel)
    (by decide +kernel)).2.1⟩

end DagScheduler.Scheduling

import DagScheduler.SchedulingProofs.OwnershipProofs

/-! A second task for the same thread, without a `shutdown` between, ends the process. -/

namespace DagScheduler.Scheduling

open Graphs Library.Transitions

variable {σ π : Type}

namespace TaskThread

variable {t t' : TaskThread σ π} {a : Action σ π} {w : ℕ}

lemma proceed_uses (hs : t.proceed = some t') : t'.uses = t.uses ∨ t'.uses = 0 := by
  cases proceed_cases hs with
  | unused | join => exact .inr rfl
  | _ => exact .inl rfl

lemma step_uses (hs : t.step a = some t') :
    t'.uses = t.uses ∨ t'.uses = 0 ∨ ∃ task, a = .setTaskAndRun task ∧ t'.uses = t.uses + 1 := by
  cases step_acts hs with
  | set task => exact .inr (.inr ⟨task, rfl, rfl⟩)
  | proceed hs =>
    rcases proceed_uses hs with h | h
    · exact .inl h
    · exact .inr (.inl h)
  | work w outcome pc hpc hw => exact .inl hw.frame.1
  | _ => exact .inl rfl

/-- A run in which every call of `set_task_and_run` is the first one since the construction or the
last `shutdown`. -/
def FirstUses (h : List (TaskThread σ π × Action σ π)) : Prop :=
  ∀ e ∈ h, ∀ task, e.2 = .setTaskAndRun task → e.1.uses = 0

lemma uses_le_one {h : List (TaskThread σ π × Action σ π)} (run : system.Run h t) (hfirst : FirstUses h) :
    t.uses ≤ 1 := by
  refine run.invariant_of (I := fun t => t.uses ≤ 1)
    (C := fun t a => ∀ task, a = .setTaskAndRun task → t.uses = 0) (Nat.zero_le 1) ?_
    (fun e he => hfirst e he)
  intro t a t' _ hcond hle hs
  rcases step_uses hs with h | h | ⟨task, rfl, h⟩
  · omega
  · omega
  · have hzero := hcond task rfl
    omega

lemma assign_iff (hsound : t.Sound) (hf : t.fault = none) (hcall : t.call = .spawned w) :
    (∀ t', t.step .proceed = some t' → t'.fault ≠ some .terminated) ↔ t.uses = 1 := by
  have hstep : t.step .proceed =
      if t.thread.isSome then some (t.fail .terminated)
      else some { t with thread := some w, call := .assigned w } := by
    simp [TaskThread.step, hf, TaskThread.proceed, hcall]
  rw [hstep]
  cases hsound.shape hf with
  | quiet uses calm task thread call => simp [hcall, CallPc.setting] at call
  | stored uses calm thread call => simp [hcall] at call
  | single uses ws pc workers old fits call frame thread =>
    obtain rfl := frame w (by rw [hcall]; rfl)
    simp [thread, hcall, uses, hf]
  | doomed uses thread call => simp [thread, uses, fail]

end TaskThread

namespace TaskScheduler

variable {s : TaskScheduler σ π} {i w : ℕ} {l : Startup σ π} {k : Fin 10}

lemma Once.not_terminated (h : s.Once) (hr : (system (σ := σ) (π := π)).Reachable s) (k : Fin 10) :
    (s.threadPool k).fault ≠ some .terminated := by
  intro hf
  have huses := (TaskThread.sound ((given hr).reachable k)).reused hf
  have hcount := List.nodup_iff_count_le_one.mp h k
  rw [← (given hr).uses k] at hcount
  omega

lemma assign_iff (hr : (system (σ := σ) (π := π)).Reachable s) (halive : s.Alive)
    (hl : s.startups[i]? = some l) (hpc : l.pc = .dispatching k)
    (hcall : (s.threadPool k).call = .spawned w) :
    (∀ s', s.step (.loop i) = some s' → (s'.threadPool k).fault ≠ some .terminated) ↔
      (s.dispatched.map Dispatch.thread).count k = 1 := by
  rw [← (given hr).uses k,
    ← TaskThread.assign_iff (TaskThread.sound ((given hr).reachable k)) (halive.2 k) hcall]
  have hstep : s.step (.loop i) = s.loop i l := by
    simp [TaskScheduler.step, halive, hl]
  rw [hstep]
  constructor
  · intro h t ht
    have hloop : s.loop i l = some (if t.call = .idle then
        { (s.put i { l with pc := .inner }).setThread k t with threadPoolLock := false }
        else s.setThread k t) := by
      simp [loop, hpc, ht]
    have hfault := h _ hloop
    split at hfault <;> simpa [setThread] using hfault
  · intro h s' hs'
    simp only [loop, hpc, Option.map_eq_some_iff] at hs'
    obtain ⟨t, ht, rfl⟩ := hs'
    have hfault := h t ht
    split <;> simpa [setThread] using hfault

end TaskScheduler

/-- A worker thread takes a task safely exactly when it was not given one since its last `shutdown`. -/
theorem thread_reuse :
    (∀ (h : List (TaskThread σ π × TaskThread.Action σ π)) t, TaskThread.system.Run h t →
      TaskThread.FirstUses h → t.fault ≠ some .terminated) ∧
    (∀ (t : TaskThread σ π) w, TaskThread.system.Reachable t → t.fault = none → t.call = .spawned w →
      ((∀ t', t.step .proceed = some t' → t'.fault ≠ some .terminated) ↔ t.uses = 1)) ∧
    (∀ s : TaskScheduler σ π, TaskScheduler.system.Reachable s → s.Once →
      ∀ k, (s.threadPool k).fault ≠ some .terminated) ∧
    ∀ (s : TaskScheduler σ π) i (l : Startup σ π) k w, TaskScheduler.system.Reachable s → s.Alive →
      s.startups[i]? = some l → l.pc = .dispatching k → (s.threadPool k).call = .spawned w →
      ((∀ s', s.step (.loop i) = some s' → (s'.threadPool k).fault ≠ some .terminated) ↔
        (s.dispatched.map Dispatch.thread).count k = 1) := by
  refine ⟨?_, ?_, ?_, ?_⟩
  · intro h t run hfirst hf
    have hle := TaskThread.uses_le_one run hfirst
    have huses := (TaskThread.sound ⟨h, run⟩).reused hf
    omega
  · exact fun t w hr hf hcall => TaskThread.assign_iff (TaskThread.sound hr) hf hcall
  · exact fun s hr honce k => honce.not_terminated hr k
  · exact fun s i l k w hr halive hl hpc hcall => TaskScheduler.assign_iff hr halive hl hpc hcall

/-! A second task for a thread that is done with the first, and for the first thread of a pool. -/

namespace Sample

abbrev Caller := TaskThread.Action Unit Unit

def firstTask : List Caller :=
  [.setTaskAndRun (some ⟨0, Graphs.Sample.task₁⟩), .proceed, .proceed, .proceed] ++
    List.replicate 2 (.work 0 true) ++ [.proceed] ++ List.replicate 12 (.work 0 true)

def secondTask : List Caller := [.setTaskAndRun (some ⟨1, Graphs.Sample.task₂⟩), .proceed, .proceed]

def dispatchFirst : List Client :=
  [.queueTask (some Graphs.Sample.task₁), .queueTask (some Graphs.Sample.task₂), .startup] ++
    steps 16 (.loop 0) ++ steps 2 (.work first 0 true) ++ steps 1 (.loop 0)

def dispatched : TaskScheduler Unit Unit :=
  (TaskScheduler.system.exec TaskScheduler.init dispatchFirst).get (by decide +kernel)

lemma dispatched_reachable : TaskScheduler.system.Reachable dispatched :=
  System.exec_reachable (Option.some_get _).symm

def restart : List Client :=
  steps 12 (.work first 0 true) ++ [.shutdown, .storeKill] ++ steps 2 (.loop 0) ++ [.startup] ++
    steps 12 (.loop 1)

end Sample

theorem thread_reuse_fails :
    (∃ t t' : TaskThread Unit Unit, TaskThread.system.exec TaskThread.init Sample.firstTask = some t ∧
      t.running = false ∧ t.call = .idle ∧ TaskThread.system.exec t Sample.secondTask = some t' ∧
      t'.fault = some .terminated) ∧
    ∃ s s' : TaskScheduler Unit Unit,
      TaskScheduler.system.exec TaskScheduler.init (Sample.dispatchFirst ++ Sample.restart) = some s ∧
      (s.threadPool 0).running = false ∧ s.startups[1]?.map Startup.pc = some (.locked 0) ∧
      TaskScheduler.system.exec s (Sample.steps 3 (.loop 1)) = some s' ∧
      (s'.threadPool 0).fault = some .terminated := by
  constructor
  · have hany : (TaskThread.system.exec TaskThread.init Sample.firstTask).any (fun t =>
        t.running = false ∧ t.call = .idle ∧ (TaskThread.system.exec t Sample.secondTask).any fun t' =>
          t'.fault = some .terminated) = true := by decide +kernel
    obtain ⟨t, ht, hp⟩ := System.exec_any hany
    obtain ⟨hrunning, hcall, hany⟩ := of_decide_eq_true hp
    obtain ⟨t', ht', hp'⟩ := System.exec_any hany
    exact ⟨t, t', ht, hrunning, hcall, ht', of_decide_eq_true hp'⟩
  · have hany : (TaskScheduler.system.exec (TaskScheduler.init : TaskScheduler Unit Unit)
        (Sample.dispatchFirst ++ Sample.restart)).any (fun s => (s.threadPool 0).running = false ∧
          s.startups[1]?.map Startup.pc = some (.locked 0) ∧
          (TaskScheduler.system.exec s (Sample.steps 3 (.loop 1))).any fun s' =>
            (s'.threadPool 0).fault = some .terminated) = true := by decide +kernel
    obtain ⟨s, hs, hp⟩ := System.exec_any hany
    obtain ⟨hrunning, hpc, hany⟩ := of_decide_eq_true hp
    obtain ⟨s', hs', hp'⟩ := System.exec_any hany
    exact ⟨s, s', hs, hrunning, hpc, hs', of_decide_eq_true hp'⟩

theorem thread_reuse_sample :
    (Sample.dispatched.threadPool 0).uses = 1 ∧ (Sample.dispatched.threadPool 0).fault ≠ some .terminated :=
  ⟨by decide +kernel, thread_reuse.2.2.1 Sample.dispatched Sample.dispatched_reachable
    (by unfold TaskScheduler.Once; decide +kernel) 0⟩

end DagScheduler.Scheduling

import DagScheduler.SchedulingProofs.BusyProofs
import DagScheduler.SchedulingProofs.DispatchProofs
import DagScheduler.SchedulingProofs.WakeupProofs

/-! The scheduler after a `shutdown`: what is still to be done, and where everything comes to rest. -/

namespace DagScheduler.Scheduling

open Graphs Library.Transitions

variable {σ π : Type} {n : ℕ}

/-! The steps left, when no task has more than `n` stages. -/

def StagePc.left (n : ℕ) : StagePc → ℕ
  | .next k => 5 * (n - k) + 2
  | .inStage k => 5 * (n - (k + 1)) + 5
  | .ranStage k _ => 5 * (n - (k + 1)) + 4
  | .visited k _ => 5 * (n - (k + 1)) + 3
  | .allOf _ => 1

def WorkerPc.left (n : ℕ) : WorkerPc σ π → ℕ
  | .created => 5 * n + 10
  | .started => 5 * n + 9
  | .notified => 5 * n + 8
  | .occupied => 5 * n + 7
  | .running => 5 * n + 6
  | .iterating _ pc => pc.left n + 3
  | .iterated _ => 3
  | .holding _ _ => 2
  | .stopped _ _ => 1
  | .finished => 0

def CallPc.left (n : ℕ) : CallPc → ℕ
  | .stored => 5 * n + 15
  | .spawned _ => 4
  | .assigned _ => 3
  | .waiting _ => 2
  | .woken _ => 1
  | _ => 0

def LoopPc.left (n : ℕ) : LoopPc → ℕ
  | .starting | .unpaused | .returned => 0
  | .outer => 1
  | .checkKill | .inner | .found _ => 2
  | .polling | .dispatching _ => 3
  | .checkPause => 4
  | .scanning k => 13 - k
  | .locking => 14
  | .innerPause => 15
  | .locked _ => 5 * n + 19
  | .acquiring _ => 5 * n + 20

namespace TaskThread

variable {t t' : TaskThread σ π} {w : ℕ} {outcome : Bool} {a : Action σ π}

def left (n : ℕ) (t : TaskThread σ π) : ℕ := t.call.left n + (t.workers.map (WorkerPc.left n)).sum

def Few (n : ℕ) (t : TaskThread σ π) : Prop := ∀ job, t.task = some job → job.task.stages.length ≤ n

lemma Works.few {pc : WorkerPc σ π} (hw : Works t w outcome pc t') (h : t.Few n) : t'.Few n := by
  cases hw with
  | enter job task | iterated job _ task =>
    intro job' hjob'
    obtain rfl := Option.some.inj hjob'
    exact h job task
  | take => exact fun job hjob => absurd hjob (by simp)
  | _ => exact h

lemma Works.left {pc : WorkerPc σ π} (hw : Works t w outcome pc t') (hpc : t.workers[w]? = some pc)
    (h : t.Few n) (hf : t'.fault = none) : t'.left n < t.left n := by
  have hset : ∀ pc' : WorkerPc σ π, pc'.left n < pc.left n →
      ((t.workers.set w pc').map (WorkerPc.left n)).sum < (t.workers.map (WorkerPc.left n)).sum := by
    intro pc' hlt
    have hsum := sum_map_set (WorkerPc.left n) (x := pc') hpc
    omega
  have hgoto : ∀ pc' : WorkerPc σ π, pc'.left n < pc.left n → t'.call = t.call →
      t'.workers = t.workers.set w pc' → t'.left n < t.left n := by
    intro pc' hlt hcall hworkers
    simp only [TaskThread.left, hcall, hworkers]
    exact Nat.add_lt_add_left (hset pc' hlt) _
  cases hw with
  | dangling | gone | stale | null => simp [fail] at hf
  | notify call =>
    have hlt := hset .notified (by simp [WorkerPc.left])
    simp only [TaskThread.left, goto_workers, call, CallPc.left]
    omega
  | stage job k task more lock =>
    have hlength := h job task
    refine hgoto (.iterating job.ticket (.inStage k)) ?_ rfl rfl
    simp only [WorkerPc.left, StagePc.left]
    omega
  | pass job k task ended alive =>
    refine hgoto (.iterating job.ticket (.next (k + 1))) ?_ rfl rfl
    simp only [WorkerPc.left, StagePc.left]
    omega
  | _ =>
    refine hgoto _ ?_ rfl rfl
    simp [WorkerPc.left, StagePc.left]

lemma proceed_few (hs : t.proceed = some t') (hsetting : t.call.setting = true) (h : t.Few n) : t'.Few n := by
  cases proceed_cases hs with
  | kill _ hc => simp [hc, CallPc.setting] at hsetting
  | _ => exact h

lemma proceed_left (hs : t.proceed = some t') (hsetting : t.call.setting = true) (hf : t'.fault = none) :
    t'.left n < t.left n := by
  cases proceed_cases hs with
  | spawn call =>
    simp only [TaskThread.left, call, CallPc.left, List.map_append, List.map_singleton, List.sum_append,
      List.sum_singleton, WorkerPc.left]
    omega
  | terminate => simp [fail] at hf
  | assign w call | wait w call | leave w call =>
    simp only [TaskThread.left, call, CallPc.left]
    omega
  | stop hc | spare hc | look hc | kill _ hc | crash hc | interrupt hc | unused hc | join _ hc =>
    simp [hc, CallPc.setting] at hsetting

lemma internal_few (ha : a.internal = true) (hs : t.step a = some t') (h : t.Few n) : t'.Few n := by
  cases step_acts hs with
  | wake => exact h
  | work w outcome pc hpc hw => exact hw.few h
  | _ => simp [Action.internal] at ha

lemma internal_left (ha : a.internal = true) (hs : t.step a = some t') (h : t.Few n) (hf : t'.fault = none) :
    t'.left n < t.left n := by
  cases step_acts hs with
  | wake w call =>
    simp only [TaskThread.left, call, CallPc.left]
    omega
  | work w outcome pc hpc hw => exact hw.left hpc h hf
  | _ => simp [Action.internal] at ha

lemma setTaskAndRun_left {task : Option (Job σ π)} (hs : t.step (.setTaskAndRun task) = some t') :
    t'.task = task ∧ t'.left n = t.left n + (5 * n + 15) := by
  cases step_acts hs with
  | set _ idle lock =>
    refine ⟨rfl, ?_⟩
    simp only [TaskThread.left, idle, CallPc.left]
    omega

end TaskThread

def LoopPc.clearing : LoopPc → Bool
  | .starting | .unpaused => true
  | _ => false

/-- Past the last look at `kill_`, with a thread chosen for the task. -/
def LoopPc.giving : LoopPc → Bool
  | .acquiring _ | .locked _ => true
  | _ => false

namespace TaskScheduler

variable {s s' t : TaskScheduler σ π} {a : Action σ π} {i : ℕ} {l x : Startup σ π} {k : Fin 10}

/-- A step of a call of `startup` or of a thread, nothing that a client asks for. -/
def Action.inner : Action σ π → Bool
  | .loop _ | .wake _ | .work _ _ _ => true
  | _ => false

def Action.due : Action σ π → Bool
  | .loop _ | .work _ _ _ => true
  | _ => false

lemma Action.inner_of_due (h : a.due = true) : a.inner = true := by
  cases a <;> first | rfl | simp [Action.due] at h

def left (n : ℕ) (s : TaskScheduler σ π) : ℕ :=
  (s.startups.map fun l => l.pc.left n).sum + ∑ k, (s.threadPool k).left n

/-- `kill_` is stored, no call is about to take that back, and no task that a thread has or is about to
get has more than `n` stages. -/
structure Winding (n : ℕ) (s : TaskScheduler σ π) : Prop where
  kill : s.kill = true
  cleared : ∀ l ∈ s.startups, l.pc.clearing = false
  threads : ∀ k, (s.threadPool k).Few n
  given : ∀ l ∈ s.startups, l.pc.giving = true → ∀ job, l.nextTask = some job → job.task.stages.length ≤ n

inductive Unwinds (s : TaskScheduler σ π) (i : ℕ) (l : Startup σ π) : TaskScheduler σ π → Prop
  | on {s' : TaskScheduler σ π} (x : Startup σ π) (startups : s'.startups = s.startups.set i x)
      (pool : s'.threadPool = s.threadPool) (kill : s'.kill = s.kill) (left : ∀ n, x.pc.left n < l.pc.left n)
      (clearing : x.pc.clearing = false)
      (giving : x.pc.giving = true → l.pc.giving = true ∧ x.nextTask = l.nextTask) : Unwinds s i l s'
  | give (k : Fin 10) (job : Job σ π) (t : TaskThread σ π) (pc : l.pc = .locked k) (next : l.nextTask = some job)
      (set : (s.threadPool k).step (.setTaskAndRun (some job)) = some t) :
      Unwinds s i l { (s.put i ⟨.dispatching k, none⟩).setThread k t with
        dispatched := s.dispatched ++ [⟨i, k, job.ticket⟩] }
  | call (k : Fin 10) (t : TaskThread σ π) (pc : LoopPc) (lock : Bool) (pc' : l.pc = .dispatching k)
      (proceed : (s.threadPool k).step .proceed = some t) (at' : pc = l.pc ∨ pc = .inner) :
      Unwinds s i l { (s.put i { l with pc := pc }).setThread k t with threadPoolLock := lock }

lemma loop_unwinds (hl : s.startups[i]? = some l) (hkill : s.kill = true) (hpc : l.pc.clearing = false)
    (hs : s.loop i l = some s') : s.Unwinds i l s' := by
  obtain ⟨pc, nextTask⟩ := l
  have hon : ∀ (x : Startup σ π), s'.startups = s.startups.set i x → s'.threadPool = s.threadPool →
      s'.kill = s.kill → (∀ n, x.pc.left n < pc.left n) → x.pc.clearing = false → x.pc.giving = false →
        s.Unwinds i ⟨pc, nextTask⟩ s' :=
    fun x hset hpool hk hleft hclear hgive => .on x hset hpool hk hleft hclear fun hx => by simp [hgive] at hx
  cases pc with
  | starting | unpaused => simp [LoopPc.clearing] at hpc
  | outer | checkKill =>
    simp only [loop, hkill, if_true, Option.some.injEq] at hs
    subst hs
    exact hon _ rfl rfl rfl (fun _ => by simp [LoopPc.left]) rfl rfl
  | checkPause =>
    simp only [loop, Option.some.injEq] at hs
    subst hs
    refine hon _ rfl rfl rfl ?_ ?_ ?_ <;> cases s.pause <;> simp [LoopPc.left, LoopPc.clearing, LoopPc.giving]
  | polling =>
    cases hq : s.queue with
    | nil =>
      simp only [loop, hq, Option.some.injEq] at hs
      subst hs
      exact hon _ rfl rfl rfl (fun _ => by simp [LoopPc.left]) rfl rfl
    | cons p rest =>
      cases p with
      | none | some job =>
        simp only [loop, hq, Option.some.injEq] at hs
        subst hs
        exact hon _ rfl rfl rfl (fun _ => by simp [LoopPc.left]) rfl rfl
  | inner | found k =>
    simp only [loop, hkill, if_true, Option.some.injEq] at hs
    subst hs
    exact hon ⟨.outer, none⟩ rfl rfl rfl (fun _ => by simp [LoopPc.left]) rfl rfl
  | innerPause =>
    simp only [loop, Option.some.injEq] at hs
    subst hs
    refine hon _ rfl rfl rfl ?_ ?_ ?_ <;> cases s.pause <;> simp [LoopPc.left, LoopPc.clearing, LoopPc.giving]
  | locking =>
    simp only [loop, Option.ite_none_left_eq_some, Option.some.injEq] at hs
    obtain ⟨-, rfl⟩ := hs
    exact hon _ rfl rfl rfl (fun _ => by simp [LoopPc.left]) rfl rfl
  | scanning k =>
    simp only [loop] at hs
    split at hs
    · split at hs <;> rename_i hk <;> obtain rfl := Option.some.inj hs
      · refine hon _ rfl rfl rfl (fun _ => ?_) rfl rfl
        simp only [LoopPc.left]
        omega
      · refine hon _ rfl rfl rfl (fun _ => ?_) rfl rfl
        simp only [LoopPc.left]
        omega
    · obtain rfl := Option.some.inj hs
      refine hon _ rfl rfl rfl (fun _ => ?_) rfl rfl
      simp only [LoopPc.left]
      omega
  | acquiring k =>
    simp only [loop, Option.ite_none_left_eq_some, Option.some.injEq] at hs
    obtain ⟨-, rfl⟩ := hs
    exact .on ⟨.locked k, nextTask⟩ rfl rfl rfl (fun _ => by simp [LoopPc.left]) rfl fun _ => ⟨rfl, rfl⟩
  | locked k =>
    cases nextTask with
    | none =>
      obtain rfl := Option.some.inj hs
      exact hon _ rfl rfl rfl (fun _ => by simp [LoopPc.left]) rfl rfl
    | some job =>
      obtain ⟨t, ht, rfl⟩ := Option.map_eq_some_iff.mp hs
      exact .give k job t rfl rfl ht
  | dispatching k =>
    obtain ⟨t, ht, rfl⟩ := Option.map_eq_some_iff.mp hs
    split
    · exact .call k t .inner false rfl ht (.inr rfl)
    · have hcall := Unwinds.call (s := s) (i := i) (l := ⟨.dispatching k, nextTask⟩) k t (.dispatching k)
        s.threadPoolLock rfl ht (.inl rfl)
      rwa [put_self hl] at hcall
  | returned => simp [loop] at hs

lemma sum_left_set (n : ℕ) (hl : s.startups[i]? = some l) (x : Startup σ π) :
    ((s.startups.set i x).map fun l => l.pc.left n).sum + l.pc.left n =
      (s.startups.map fun l => l.pc.left n).sum + x.pc.left n :=
  sum_map_set _ hl

lemma Winding.put (h : s.Winding n) (hset : t.startups = s.startups.set i x) (hkill : t.kill = true)
    (hthreads : ∀ k, (t.threadPool k).Few n) (hclear : x.pc.clearing = false)
    (hgive : x.pc.giving = true → ∀ job, x.nextTask = some job → job.task.stages.length ≤ n) : t.Winding n := by
  refine ⟨hkill, fun y hy => ?_, hthreads, fun y hy hgiving => ?_⟩
  · rcases List.mem_or_eq_of_mem_set (hset ▸ hy) with hy | rfl
    · exact h.cleared y hy
    · exact hclear
  · rcases List.mem_or_eq_of_mem_set (hset ▸ hy) with hy | rfl
    · exact h.given y hy hgiving
    · exact hgive hgiving

lemma few_setThread {t : TaskThread σ π} (h : ∀ k, (s.threadPool k).Few n) (ht : t.Few n) (j : Fin 10) :
    (Function.update s.threadPool k t j).Few n := by
  by_cases hjk : j = k
  · subst hjk
    rwa [Function.update_self]
  · rw [Function.update_of_ne hjk]
    exact h j

lemma Winding.loop (h : s.Winding n) (hg : s.Guarded) (hl : s.startups[i]? = some l) (hs : s.loop i l = some s') :
    s'.Winding n ∧ (s'.Alive → s'.left n < s.left n) := by
  have hmem := List.mem_of_getElem? hl
  have hclear := h.cleared l hmem
  cases loop_unwinds hl h.kill hclear hs with
  | on x startups pool kill left clearing giving =>
    refine ⟨h.put startups (kill.trans h.kill) (pool ▸ h.threads) clearing ?_, fun _ => ?_⟩
    · intro hx job hjob
      obtain ⟨hgiving, hnext⟩ := giving hx
      exact h.given l hmem hgiving job (hnext ▸ hjob)
    · have hsum := sum_left_set n hl x
      have hlt := left n
      simp only [TaskScheduler.left, startups, pool]
      omega
  | give k job t pc next set =>
    obtain ⟨htask, hleft⟩ := TaskThread.setTaskAndRun_left (n := n) set
    have hfew : t.Few n := by
      intro job' hjob'
      obtain rfl := Option.some.inj (htask.symm.trans hjob')
      exact h.given l hmem (by rw [pc]; rfl) _ next
    refine ⟨h.put rfl h.kill (few_setThread h.threads hfew) rfl fun hx => ?_, fun _ => ?_⟩
    · simp [LoopPc.giving] at hx
    · have hsum := sum_left_set n hl ⟨.dispatching k, none⟩
      have hthreads := sum_update (TaskThread.left n) s.threadPool k t
      have hlocked : l.pc.left n = 5 * n + 19 := by rw [pc]; rfl
      have hdispatching : (⟨.dispatching k, none⟩ : Startup σ π).pc.left n = 3 := rfl
      simp only [TaskScheduler.left, setThread, TaskScheduler.put]
      omega
  | call k t pc lock pc' proceed at' =>
    have hsetting := hg.calls i l k hl (by rw [pc']; rfl)
    have hproceed := TaskThread.step_proceed proceed
    have hpcs : pc.left n ≤ l.pc.left n ∧ pc.clearing = false ∧ pc.giving = false := by
      rcases at' with rfl | rfl <;> simp [pc', LoopPc.left, LoopPc.clearing, LoopPc.giving]
    obtain ⟨hle, hpcclear, hpcgive⟩ := hpcs
    have hfew := TaskThread.proceed_few hproceed hsetting (h.threads k)
    refine ⟨h.put rfl h.kill (few_setThread h.threads hfew) hpcclear fun hx => ?_, fun halive => ?_⟩
    · simp [hpcgive] at hx
    · have hf : t.fault = none := by simpa [setThread] using halive.2 k
      have hlt := TaskThread.proceed_left (n := n) hproceed hsetting hf
      have hsum := sum_left_set n hl { l with pc := pc }
      have hthreads := sum_update (TaskThread.left n) s.threadPool k t
      simp only [TaskScheduler.left, setThread, TaskScheduler.put]
      simp only at hsum
      omega

/-- Without new calls of `startup`, every step of the calls and threads brings the end nearer, and clients
do not move it away. -/
lemma Winding.step (h : s.Winding n) (hg : s.Guarded) (ha : a ≠ .startup) (hs : s.step a = some s') :
    s'.Winding n ∧ (s'.Alive → s'.left n + (if a.inner then 1 else 0) ≤ s.left n) := by
  obtain ⟨halive, hm⟩ := step_cases hs
  by_cases hloop : ∃ i, a = .loop i
  · obtain ⟨i, rfl⟩ := hloop
    simp only [TaskScheduler.step, halive, not_true_eq_false, if_false] at hs
    obtain ⟨l, hl, hs⟩ := Option.bind_eq_some_iff.mp hs
    exact h.loop hg hl hs
  · cases hm with
    | queueTask | null | unlink => exact ⟨⟨h.kill, h.cleared, h.threads, h.given⟩, fun _ => le_refl _⟩
    | flags p k m flag =>
      have hkill : k = true := by
        cases a <;> simp [TaskScheduler.step, halive, Action.flag] at hs flag
        all_goals grind [h.kill]
      have hinner : a.inner = false := by cases a <;> simp_all [Action.flag, Action.inner]
      refine ⟨⟨hkill, h.cleared, h.threads, h.given⟩, fun _ => ?_⟩
      simp [hinner, TaskScheduler.left]
    | startup => exact absurd rfl ha
    | thread k b t internal step =>
      refine ⟨⟨h.kill, h.cleared, few_setThread h.threads (TaskThread.internal_few internal step (h.threads k)),
        h.given⟩, fun halive' => ?_⟩
      have hf : t.fault = none := by simpa [setThread] using halive'.2 k
      have hlt := TaskThread.internal_left internal step (h.threads k) hf
      have hthreads := sum_update (TaskThread.left n) s.threadPool k t
      simp only [TaskScheduler.left, setThread]
      split <;> omega
    | _ => exact absurd ⟨_, rfl⟩ hloop

def Stalled (s : TaskScheduler σ π) : Prop := ∀ a : Action σ π, a.due = true → s.step a = none

/-- One call of `startup` waits for a notification that was sent before, and the others have returned or
wait for the lock it holds. -/
def Wedged (s : TaskScheduler σ π) : Prop :=
  ∃ (i : ℕ) (l : Startup σ π) (k : Fin 10) (w : ℕ), s.startups[i]? = some l ∧ l.pc = .dispatching k ∧
    (s.threadPool k).Stuck w ∧ ∀ (j : ℕ) (l' : Startup σ π), j ≠ i → s.startups[j]? = some l' →
      l'.pc = .returned ∨ l'.pc = .locking ∨ ∃ k', l'.pc = .acquiring k'

end TaskScheduler

namespace TaskThread

variable {t : TaskThread σ π} {w : ℕ}

lemma Shape.rests (h : t.Shape) (hfree : t.Undisturbed) (hwork : ∀ w, t.work w true = none) (hstored : t.call ≠ .stored)
    (hspawned : ∀ w, t.call ≠ .spawned w) :
    t.Calm ∧ t.task = none ∧ t.uses ≤ 1 ∧ ∀ w, t.call.frame = some w → t.workers[w]? = some .finished := by
  cases h with
  | quiet uses calm task thread call =>
    refine ⟨calm, task, by omega, fun w hw => ?_⟩
    cases hcall : t.call <;> simp [hcall, CallPc.frame, CallPc.setting] at hw call
  | stored uses calm thread call => exact absurd call hstored
  | single uses ws pc workers old fits call frame thread =>
    have hpc : t.workers[ws.length]? = some pc := by simp [workers]
    obtain rfl : pc = .finished := by
      by_contra hne
      have hsome := fits.work hfree hpc hne true
      simp [hwork] at hsome
    refine ⟨⟨fits.2.1, fits.2.2, fun p hp => ?_⟩, fits.1, by omega, fun w hw => ?_⟩
    · rcases List.mem_append.mp (workers ▸ hp) with hp | hp
      · exact old p hp
      · exact List.mem_singleton.mp hp
    · rw [frame w hw]
      exact hpc
  | doomed uses thread call =>
    rcases call with call | ⟨w, call⟩
    · exact absurd call hstored
    · exact absurd call (hspawned w)

lemma proceed_none (h : t.proceed = none) (hsetting : t.call.setting = true) : ∃ w, t.call = .waiting w := by
  cases hcall : t.call with
  | waiting w => exact ⟨w, rfl⟩
  | stored | assigned | woken => simp [proceed, hcall] at h
  | spawned w =>
    simp only [proceed, hcall] at h
    split at h <;> simp at h
  | _ => simp [hcall, CallPc.setting] at hsetting

end TaskThread

namespace TaskScheduler

variable {s t : TaskScheduler σ π} {i : ℕ} {l : Startup σ π} {k : Fin 10} {ticket : ℕ}

inductive Stands (s : TaskScheduler σ π) (l : Startup σ π) : Prop
  | returned (pc : l.pc = .returned)
  | locked (lock : s.threadPoolLock = true) (pc : l.pc = .locking ∨ ∃ k, l.pc = .acquiring k)
  | giving (k : Fin 10) (job : Job σ π) (pc : l.pc = .locked k)
      (busy : (s.threadPool k).step (.setTaskAndRun (some job)) = none)
  | calling (k : Fin 10) (pc : l.pc = .dispatching k) (waits : (s.threadPool k).step .proceed = none)

lemma loop_stands (hs : s.loop i l = none) : s.Stands l := by
  obtain ⟨pc, nextTask⟩ := l
  cases pc with
  | returned => exact .returned rfl
  | locking =>
    simp only [loop, ite_eq_left_iff, reduceCtorEq, imp_false, not_not] at hs
    exact .locked hs (.inl rfl)
  | acquiring k =>
    simp only [loop, ite_eq_left_iff, reduceCtorEq, imp_false, not_not] at hs
    exact .locked hs (.inr ⟨k, rfl⟩)
  | locked k =>
    cases nextTask with
    | none => simp [loop] at hs
    | some job => exact .giving k job rfl (Option.map_eq_none_iff.mp hs)
  | dispatching k => exact .calling k rfl (Option.map_eq_none_iff.mp hs)
  | polling =>
    simp only [loop] at hs
    split at hs <;> simp at hs
  | scanning k =>
    simp only [loop] at hs
    split at hs
    · split at hs <;> simp at hs
    · simp at hs
  | _ => simp [loop] at hs

lemma Stalled.stands (h : s.Stalled) (halive : s.Alive) (hl : s.startups[i]? = some l) : s.Stands l := by
  have hs := h (.loop i) rfl
  simp only [TaskScheduler.step, halive, not_true_eq_false, if_false, hl, Option.bind_some] at hs
  exact loop_stands hs

lemma Stalled.rests (h : s.Stalled) (halive : s.Alive) (hr : (system (σ := σ) (π := π)).Reachable s) (k : Fin 10) :
    (s.threadPool k).Calm ∧ (s.threadPool k).task = none ∧ (s.threadPool k).uses ≤ 1 ∧
      ∀ w, (s.threadPool k).call.frame = some w → (s.threadPool k).workers[w]? = some .finished := by
  have hg := guarded hr
  have hf := halive.2 k
  have hwork : ∀ w, (s.threadPool k).work w true = none := by
    intro w
    have hs := h (.work k w true) rfl
    simpa [TaskScheduler.step, halive, TaskThread.step, hf] using hs
  have hwaits : (s.threadPool k).call = .idle ∨ ∃ w, (s.threadPool k).call = .waiting w := by
    by_cases hidle : (s.threadPool k).call = .idle
    · exact .inl hidle
    · obtain ⟨i, l, hl, hcalling⟩ := hg.busy k hidle
      have hsetting := hg.calls i l k hl hcalling
      cases h.stands halive hl with
      | calling k' pc waits =>
        obtain rfl : k' = k := by simpa [pc, LoopPc.calling] using hcalling
        exact .inr (TaskThread.proceed_none (by simpa [TaskThread.step, hf] using waits) hsetting)
      | returned pc => simp [pc, LoopPc.calling] at hcalling
      | giving k' job pc => simp [pc, LoopPc.calling] at hcalling
      | locked lock pc => rcases pc with pc | ⟨k', pc⟩ <;> simp [pc, LoopPc.calling] at hcalling
  apply ((TaskThread.sound ((given hr).reachable k)).shape hf).rests (undisturbed hr k) hwork
  · rcases hwaits with hc | ⟨w, hc⟩ <;> simp [hc]
  · rcases hwaits with hc | ⟨w, hc⟩ <;> simp [hc]

lemma Stalled.not_giving (h : s.Stalled) (halive : s.Alive) (hr : (system (σ := σ) (π := π)).Reachable s)
    (hl : s.startups[i]? = some l) : l.pc = .returned ∨
      s.threadPoolLock = true ∧ (l.pc = .locking ∨ ∃ k, l.pc = .acquiring k) ∨
      ∃ k w, l.pc = .dispatching k ∧ (s.threadPool k).Stuck w := by
  have hg := guarded hr
  cases h.stands halive hl with
  | returned pc => exact .inl pc
  | locked lock pc => exact .inr (.inl ⟨lock, pc⟩)
  | giving k job pc busy =>
    have hidle := hg.idle hl (by rw [pc]; rfl) (by rw [pc]; rfl) k
    have hlock := TaskThread.locked_eq_false.mpr ⟨(h.rests halive hr k).1.taskLock, undisturbed hr k⟩
    simp [TaskThread.step, halive.2 k, hidle, hlock] at busy
  | calling k pc waits =>
    have hsetting := hg.calls i l k hl (by rw [pc]; rfl)
    obtain ⟨w, hw⟩ := TaskThread.proceed_none (by simpa [TaskThread.step, halive.2 k] using waits) hsetting
    have hfinished := (h.rests halive hr k).2.2.2 w (by rw [hw]; rfl)
    exact .inr (.inr ⟨k, w, pc, hw, .finished, hfinished, rfl⟩)

lemma Stalled.ends (h : s.Stalled) (halive : s.Alive) (hr : (system (σ := σ) (π := π)).Reachable s) :
    (∀ l ∈ s.startups, l.pc = .returned ∧ l.nextTask = none) ∨ s.Wedged := by
  have hg := guarded hr
  by_cases hcalls : ∃ (i : ℕ) (l : Startup σ π), s.startups[i]? = some l ∧ l.pc.locks = true
  · obtain ⟨i, l, hl, hlocks⟩ := hcalls
    obtain ⟨k, w, pc, hstuck⟩ : ∃ k w, l.pc = .dispatching k ∧ (s.threadPool k).Stuck w := by
      rcases h.not_giving halive hr hl with pc | ⟨-, pc | ⟨k, pc⟩⟩ | hwedged
      · simp [pc, LoopPc.locks] at hlocks
      · simp [pc, LoopPc.locks] at hlocks
      · simp [pc, LoopPc.locks] at hlocks
      · exact hwedged
    refine .inr ⟨i, l, k, w, hl, pc, hstuck, fun j l' hne hj => ?_⟩
    rcases h.not_giving halive hr hj with pc' | ⟨-, pc'⟩ | ⟨k', w', pc', -⟩
    · exact .inl pc'
    · exact .inr pc'
    · exact absurd (hg.one j i l' l hj hl (by rw [pc']; rfl) hlocks) hne
  · refine .inl fun l hmem => ?_
    obtain ⟨i, hl⟩ := List.mem_iff_getElem?.mp hmem
    have hreturned : l.pc = .returned := by
      rcases h.not_giving halive hr hl with pc | ⟨lock, -⟩ | ⟨k, w, pc, -⟩
      · exact pc
      · exact absurd (held hr lock) hcalls
      · exact absurd ⟨i, l, hl, by rw [pc]; rfl⟩ hcalls
    exact ⟨hreturned, hg.empty i l hl (.inl (by rw [hreturned]; rfl))⟩

lemma Stalled.once (h : s.Stalled) (halive : s.Alive) (hr : (system (σ := σ) (π := π)).Reachable s) : s.Once := by
  refine List.nodup_iff_count_le_one.mpr fun k => ?_
  rw [← (given hr).uses k]
  exact (h.rests halive hr k).2.2.1

lemma Stalled.accounts (h : s.Stalled) (halive : s.Alive) (hr : (system (σ := σ) (π := π)).Reachable s)
    {task : Task σ π} (hqueued : s.queued[ticket]? = some (some task)) :
    s.inQueue ticket + s.inHand ticket + s.completed ticket + s.discarded.count ticket +
      s.removed.count ticket = 1 := by
  have howners := owners_eq ticket hr
  have hholds := sum_holds_eq ticket hr (h.once halive hr)
  have haccepted : s.accepted ticket = 1 := by simp [accepted, hqueued]
  have hcompleted : ∑ k, (s.threadPool k).holds ticket = s.completed ticket := by
    refine Finset.sum_congr rfl fun k _ => ?_
    obtain ⟨hcalm, htask, -⟩ := h.rests halive hr k
    have hworkers : ((s.threadPool k).workers.map fun pc => Job.amount ticket pc.tmp).sum = 0 := by
      apply List.sum_eq_zero
      intro m hm
      obtain ⟨pc, hpc, rfl⟩ := List.mem_map.mp hm
      rw [hcalm.workers pc hpc]
      exact Job.amount_none
    simp [TaskThread.holds, htask, hworkers]
  simp only [owners, haccepted] at howners
  simp only [inQueue, inHand]
  omega

lemma exists_winding (hkill : s.kill = true) (hcleared : ∀ l ∈ s.startups, l.pc.clearing = false) :
    ∃ n, s.Winding n := by
  let size : Option (Job σ π) → ℕ := fun p => (p.map fun job => job.task.stages.length).getD 0
  refine ⟨∑ k, size (s.threadPool k).task + (s.startups.map fun l => size l.nextTask).sum, hkill, hcleared,
    fun k job hjob => ?_, fun l hl _ job hjob => ?_⟩
  · have hsize : size (s.threadPool k).task = job.task.stages.length := by simp [size, hjob]
    have hle : size (s.threadPool k).task ≤ ∑ j, size (s.threadPool j).task :=
      Finset.single_le_sum (f := fun j => size (s.threadPool j).task) (fun _ _ => Nat.zero_le _) (Finset.mem_univ k)
    omega
  · have hsize : size l.nextTask = job.task.stages.length := by simp [size, hjob]
    have hle : size l.nextTask ≤ (s.startups.map fun l => size l.nextTask).sum :=
      List.le_sum_of_mem (List.mem_map_of_mem hl)
    omega

/-- Once nothing more can happen by itself, the threads have done what they were given, every task that was
queued is completed, or left in the queue, or in the hands of a call that stands, or was dropped; and every
call has returned unless one of them missed its wake-up. -/
theorem at_rest (hr : (system (σ := σ) (π := π)).Reachable s) (halive : s.Alive) (h : s.Stalled) :
    (∀ k, (s.threadPool k).Calm ∧ (s.threadPool k).task = none) ∧
    (∀ ticket task, s.queued[ticket]? = some (some task) →
      s.inQueue ticket + s.inHand ticket + s.completed ticket + s.discarded.count ticket +
        s.removed.count ticket = 1) ∧
    ((∀ l ∈ s.startups, l.pc = .returned ∧ l.nextTask = none) ∨ s.Wedged) := by
  refine ⟨fun k => ?_, fun ticket task hqueued => h.accounts halive hr hqueued, h.ends halive hr⟩
  obtain ⟨hcalm, htask, -⟩ := h.rests halive hr k
  exact ⟨hcalm, htask⟩

/-- After a `shutdown` has stored to `kill_`, and with no call of `startup` that takes it back, only so many
steps of the calls and the threads are left, whatever clients do; and where clients do nothing, they lead to
rest. -/
theorem winds_down (hr : (system (σ := σ) (π := π)).Reachable s) (hkill : s.kill = true)
    (hcleared : ∀ l ∈ s.startups, l.pc.clearing = false) :
    (∃ bound, ∀ as t, (∀ a ∈ as, a ≠ .startup) → system.exec s as = some t → as.countP Action.inner ≤ bound) ∧
    ∀ t, system.Leads (· ≠ .startup) s t → ∃ u, system.Leads (·.due = true) t u ∧ u.Stalled := by
  obtain ⟨n, hwinding⟩ := exists_winding hkill hcleared
  let left : TaskScheduler σ π → ℕ := fun s => if s.Alive then s.left n + 1 else 0
  have hstep : ∀ s a t, a ≠ .startup → system.Reachable s ∧ s.Winding n → s.step a = some t →
      (system.Reachable t ∧ t.Winding n) ∧ left t + (if a.inner then 1 else 0) ≤ left s := by
    intro s a t ha hI hs
    obtain ⟨hwinding', hleft⟩ := hI.2.step (guarded hI.1) ha hs
    refine ⟨⟨reachable_step hI.1 hs, hwinding'⟩, ?_⟩
    have halive := (step_cases hs).1
    by_cases halive' : t.Alive
    · have hlt := hleft halive'
      simp only [left, if_pos halive, if_pos halive']
      omega
    · simp only [left, if_pos halive, if_neg halive']
      split <;> omega
  refine ⟨⟨left s, fun as t has hexec => ?_⟩, fun t hleads => ?_⟩
  · have hcount := System.exec_countP (M := system) left hstep has ⟨hr, hwinding⟩ hexec
    omega
  · have hI := hleads.invariant (I := fun t => system.Reachable t ∧ t.Winding n)
      (fun s a t _ ha hI hs => (hstep s a t ha hI hs).1) hr ⟨hr, hwinding⟩
    refine System.exists_stuck (M := system) (I := fun t => system.Reachable t ∧ t.Winding n) left
      (fun s a t ha hI hs => ?_) hI
    have hinner := Action.inner_of_due ha
    have hne : a ≠ .startup := by
      rintro rfl
      simp [Action.inner] at hinner
    obtain ⟨hI', hle⟩ := hstep s a t hne hI hs
    rw [if_pos hinner] at hle
    exact ⟨hI', by omega⟩

end TaskScheduler

namespace Sample

/-- One task was run by a thread, another is left in the queue, and the call of `startup` returned. -/
def returned : TaskScheduler Unit Unit :=
  (TaskScheduler.system.exec TaskScheduler.init
    (handedOver ++ [.loop 0] ++ steps 12 (.work first 0 true) ++ [.shutdown, .storeKill] ++ steps 2 (.loop 0))).get
    (by decide +kernel)

lemma returned_reachable : TaskScheduler.system.Reachable returned :=
  System.exec_reachable (Option.some_get _).symm

lemma returned_stalled : returned.Stalled := by
  have halive : returned.Alive := by decide +kernel
  have hlength : returned.startups.length = 1 := by decide +kernel
  have hfirst : returned.startups[0]? = some ⟨.returned, none⟩ := by rfl
  have hworkers : (returned.threadPool first).workers = [.finished] := by rfl
  have hunused : ∀ k, k ≠ first → (returned.threadPool k).workers.isEmpty = true := by decide +kernel
  have hfinished : ∀ k, ∀ pc ∈ (returned.threadPool k).workers, pc = .finished := by
    intro k pc hpc
    by_cases hk : k = first
    · subst hk
      simpa [hworkers] using hpc
    · rw [List.isEmpty_iff.mp (hunused k hk)] at hpc
      exact absurd hpc List.not_mem_nil
  intro a ha
  cases a with
  | loop i =>
    cases i with
    | zero => simp [TaskScheduler.step, halive, hfirst, TaskScheduler.loop]
    | succ i => simp [TaskScheduler.step, halive, hlength]
  | work k w outcome =>
    cases hw : (returned.threadPool k).workers[w]? with
    | none => simp [TaskScheduler.step, halive, TaskThread.step, halive.2 k, TaskThread.work, hw]
    | some pc =>
      obtain rfl := hfinished k pc (List.mem_of_getElem? hw)
      simp [TaskScheduler.step, halive, TaskThread.step, halive.2 k, TaskThread.work, hw]
  | _ => simp [TaskScheduler.Action.due] at ha

end Sample

namespace TaskScheduler

theorem at_rest_sample :
    (∀ k, (Sample.returned.threadPool k).Calm ∧ (Sample.returned.threadPool k).task = none) ∧
    (∀ ticket task, Sample.returned.queued[ticket]? = some (some task) →
      Sample.returned.inQueue ticket + Sample.returned.inHand ticket + Sample.returned.completed ticket +
        Sample.returned.discarded.count ticket + Sample.returned.removed.count ticket = 1) ∧
    ((∀ l ∈ Sample.returned.startups, l.pc = .returned ∧ l.nextTask = none) ∨ Sample.returned.Wedged) :=
  at_rest Sample.returned_reachable (by decide +kernel) Sample.returned_stalled

theorem winds_down_sample :
    (∃ bound, ∀ as t, (∀ a ∈ as, a ≠ .startup) → system.exec Sample.shutDown as = some t →
      as.countP Action.inner ≤ bound) ∧
    ∀ t, system.Leads (· ≠ .startup) Sample.shutDown t → ∃ u, system.Leads (·.due = true) t u ∧ u.Stalled :=
  winds_down Sample.shutDown_reachable (by decide +kernel) (by decide +kernel)

end TaskScheduler

end DagScheduler.Scheduling

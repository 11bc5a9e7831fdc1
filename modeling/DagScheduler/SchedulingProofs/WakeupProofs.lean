import DagScheduler.GraphProofs.WellFormed
import DagScheduler.SchedulingProofs.ThreadProofs

/-! The notification of `set_task_and_run`: sent without `return_mutex`, heard only by a caller that
is blocked already. -/

namespace DagScheduler.Scheduling

open Graphs Library.Transitions

variable {σ π : Type} {t t' : TaskThread σ π} {w : ℕ} {outcome : Bool} {a : TaskThread.Action σ π}

def WorkerPc.willNotify : WorkerPc σ π → Bool
  | .created | .started => true
  | _ => false

def WorkerPc.atNotify : WorkerPc σ π → Bool
  | .started => true
  | _ => false

def CallPc.awaited : CallPc → Option ℕ
  | .spawned w | .assigned w | .waiting w => some w
  | _ => none

namespace TaskThread

/-- The caller waits, or will wait next, and its worker has called `notify_one` before. -/
def Missed (t : TaskThread σ π) : Prop :=
  ∃ w pc, t.call.awaited = some w ∧ t.workers[w]? = some pc ∧ pc.willNotify = false

/-- If the step is a `notify_one`, the caller is blocked in `wait`. -/
def Heard (t : TaskThread σ π) : Action σ π → Bool
  | .work w _ => !(t.workers[w]?.any WorkerPc.atNotify) || t.call == .waiting w
  | _ => true

def Expects (t : TaskThread σ π) : Prop :=
  ∀ w, t.call.awaited = some w → ∃ pc, t.workers[w]? = some pc ∧ pc.willNotify = true

lemma Expects.not_missed (h : t.Expects) : ¬ t.Missed := by
  rintro ⟨w, pc, hw, hpc, hno⟩
  obtain ⟨pc', hpc', hyes⟩ := h w hw
  obtain rfl := Option.some.inj (hpc.symm.trans hpc')
  exact Bool.false_ne_true (hno.symm.trans hyes)

lemma Expects.congr (h : t.Expects) (hcall : t'.call.awaited = t.call.awaited) (hworkers : t'.workers = t.workers) :
    t'.Expects := by
  intro w hw
  rw [hcall] at hw
  rw [hworkers]
  exact h w hw

lemma Expects.of_none (hcall : t.call.awaited = none) : t.Expects :=
  fun w hw => absurd (hcall.symm.trans hw) (by simp)

lemma Expects.past (h : t.Expects) {pc pc' : WorkerPc σ π} (hpc : t.workers[w]? = some pc)
    (hno : pc.willNotify = false) (hcall : t'.call = t.call) (hworkers : t'.workers = t.workers.set w pc') :
    t'.Expects := by
  intro v hv
  rw [hcall] at hv
  obtain ⟨pc₁, hpc₁, hyes⟩ := h v hv
  have hne : w ≠ v := by
    rintro rfl
    obtain rfl := Option.some.inj (hpc.symm.trans hpc₁)
    exact Bool.false_ne_true (hno.symm.trans hyes)
  exact ⟨pc₁, by rw [hworkers, List.getElem?_set_ne hne, hpc₁], hyes⟩

lemma Works.expects {pc : WorkerPc σ π} (hw : Works t w outcome pc t') (h : t.Expects)
    (hpc : t.workers[w]? = some pc) (hheard : pc = .started → t.call = .waiting w) : t'.Expects := by
  cases hw with
  | start frame =>
    intro v hv
    by_cases hwv : w = v
    · subst hwv
      refine ⟨.started, ?_, rfl⟩
      rw [goto_workers, List.getElem?_set_self (List.getElem?_eq_some_iff.mp hpc).1]
    · obtain ⟨pc₁, hpc₁, hyes⟩ := h v hv
      exact ⟨pc₁, by rw [goto_workers, List.getElem?_set_ne hwv, hpc₁], hyes⟩
  | notify call => exact .of_none rfl
  | unheard call frame => exact absurd (hheard rfl) call
  | dangling | gone | stale | null => exact h.congr rfl rfl
  | _ => exact h.past hpc rfl rfl rfl

lemma proceed_expects (h : t.Expects) (hs : t.proceed = some t') : t'.Expects := by
  cases proceed_cases hs with
  | spawn hcall =>
    intro w hw
    obtain rfl := Option.some.inj hw
    exact ⟨.created, List.getElem?_concat_length, rfl⟩
  | terminate => exact h.congr rfl rfl
  | assign w hcall | wait w hcall => exact h.congr (by rw [hcall]; rfl) rfl
  | look => exact .of_none (by cases t.task <;> rfl)
  | _ => exact .of_none rfl

lemma Expects.step (h : t.Expects) (hheard : t.Heard a = true) (hs : t.step a = some t') : t'.Expects := by
  cases step_acts hs with
  | set => exact .of_none rfl
  | shutdown => exact .of_none rfl
  | proceed hp => exact proceed_expects h hp
  | wake => exact .of_none rfl
  | work w outcome pc at' works =>
    apply works.expects h at'
    rintro rfl
    simpa [Heard, at', WorkerPc.atNotify] using hheard
  | reach | skip | kill | crash => exact h.congr rfl rfl
  | store => exact h.congr rfl rfl

/-- No wake-up is missed as long as no worker notifies before its caller is blocked. -/
theorem never_missed {h : List (TaskThread σ π × Action σ π)} (run : system.Run h t)
    (hheard : ∀ e ∈ h, e.1.Heard e.2 = true) : ¬ t.Missed := by
  apply Expects.not_missed
  refine run.invariant_of (I := Expects) (C := fun t a => t.Heard a = true) ?_ ?_ hheard
  · exact .of_none rfl
  · exact fun _ _ _ _ hc hI hs => hI.step hc hs

/-! A caller that missed it. -/

def Stuck (w : ℕ) (t : TaskThread σ π) : Prop :=
  t.call = .waiting w ∧ ∃ pc, t.workers[w]? = some pc ∧ pc.willNotify = false

lemma Stuck.missed (h : t.Stuck w) : t.Missed := by
  obtain ⟨hcall, pc, hpc, hno⟩ := h
  exact ⟨w, pc, by rw [hcall]; rfl, hpc, hno⟩

lemma Works.past {v : ℕ} {pc : WorkerPc σ π} (hw : Works t v outcome pc t') (hno : pc.willNotify = false) :
    t'.call = t.call ∧ (t'.workers = t.workers ∨ ∃ pc', t'.workers = t.workers.set v pc' ∧ pc'.willNotify = false) := by
  cases hw with
  | start | notify | unheard => exact absurd hno (by simp [WorkerPc.willNotify])
  | dangling | gone | stale | null => exact ⟨rfl, .inl rfl⟩
  | _ => exact ⟨rfl, .inr ⟨_, rfl, rfl⟩⟩

lemma Works.aside {v : ℕ} {pc : WorkerPc σ π} (hw : Works t v outcome pc t') (hcall : t.call = .waiting w)
    (hne : v ≠ w) : t'.call = t.call ∧ t'.workers[w]? = t.workers[w]? := by
  cases hw with
  | notify call =>
    rw [hcall, CallPc.waiting.injEq] at call
    exact absurd call.symm hne
  | dangling | gone | stale | null => exact ⟨rfl, rfl⟩
  | _ => exact ⟨rfl, List.getElem?_set_ne hne⟩

lemma Stuck.step (h : t.Stuck w) (ha : a ≠ .wake) (hs : t.step a = some t') : t'.Stuck w := by
  obtain ⟨hcall, pc, hpc, hno⟩ := h
  cases step_acts hs with
  | set _ idle => simp [hcall] at idle
  | shutdown idle => simp [hcall] at idle
  | proceed hp => simp [proceed, hcall] at hp
  | wake => exact absurd rfl ha
  | work v outcome pc' at' works =>
    by_cases hvw : v = w
    · subst hvw
      obtain rfl := Option.some.inj (at'.symm.trans hpc)
      obtain ⟨hcall', hworkers | ⟨pc₁, hworkers, hno₁⟩⟩ := works.past hno
      · exact ⟨hcall'.trans hcall, pc', hworkers ▸ hpc, hno⟩
      · refine ⟨hcall'.trans hcall, pc₁, ?_, hno₁⟩
        rw [hworkers, List.getElem?_set_self (List.getElem?_eq_some_iff.mp hpc).1]
    · obtain ⟨hcall', hworkers⟩ := works.aside hcall hvw
      exact ⟨hcall'.trans hcall, pc, hworkers.trans hpc, hno⟩
  | reach | skip | kill | crash => exact ⟨hcall, pc, hpc, hno⟩
  | store => exact ⟨hcall, pc, hpc, hno⟩

lemma Stuck.forever (h : t.Stuck w) (hr : system.Reachable t) (hl : system.Leads (· ≠ .wake) t t') :
    t'.Stuck w :=
  hl.invariant (fun _ _ _ _ ha hI hs => hI.step ha hs) hr h

end TaskThread

namespace Sample

abbrev Step := TaskThread.Action Unit Unit

def inTime : List Step :=
  [.setTaskAndRun (some ⟨0, Graphs.Sample.task₁⟩), .proceed, .proceed, .proceed, .work 0 true, .work 0 true,
    .proceed]

def tooLate : List Step :=
  [.setTaskAndRun (some ⟨0, Graphs.Sample.task₁⟩), .proceed] ++ List.replicate 14 (.work 0 true) ++
    [.proceed, .proceed]

end Sample

namespace TaskThread

theorem never_missed_sample :
    ∃ t : TaskThread Unit Unit, system.exec init Sample.inTime = some t ∧ ¬ t.Missed := by
  have hany : (system.exec init Sample.inTime).any (fun t => t.call = .idle) = true := by decide +kernel
  obtain ⟨t, ht, -⟩ := System.exec_any hany
  have hheard : (system.trace init Sample.inTime).all (fun e => e.1.Heard e.2) = true := by decide +kernel
  exact ⟨t, ht, never_missed (System.exec_trace ht) (List.all_eq_true.mp hheard)⟩

/-- The task is completed, and the caller that set it is blocked for good. -/
theorem never_missed_fails :
    ∃ t : TaskThread Unit Unit, system.Reachable t ∧ t.fault = none ∧ t.completions.length = 1 ∧ t.Missed ∧
      ∀ t', system.Leads (· ≠ .wake) t t' → t'.call = .waiting 0 := by
  have hany : (system.exec init Sample.tooLate).any (fun t => t.fault = none ∧ t.completions.length = 1 ∧
      t.call = .waiting 0 ∧ (t.workers[0]?.any fun pc => !pc.willNotify) = true) = true := by decide +kernel
  obtain ⟨t, ht, hp⟩ := System.exec_any hany
  obtain ⟨hf, hlength, hcall, hpc⟩ := of_decide_eq_true hp
  obtain ⟨pc, hpc, hno⟩ := (Option.any_eq_true ..).mp hpc
  have hstuck : t.Stuck 0 := ⟨hcall, pc, hpc, by simpa using hno⟩
  exact ⟨t, System.exec_reachable ht, hf, hlength, hstuck.missed,
    fun t' hl => (hstuck.forever (System.exec_reachable ht) hl).1⟩

end TaskThread

end DagScheduler.Scheduling

import DagScheduler.Scheduling.TaskThread

/-! What holds of a thread in every run: one worker at a time as long as every call of
`set_task_and_run` finds `thread_` joined, and no task made or lost by a worker. -/

namespace DagScheduler.Scheduling

open Graphs Library.Transitions

variable {σ π : Type} {t t' : TaskThread σ π} {w : ℕ} {outcome : Bool} {a : TaskThread.Action σ π}

lemma append_cases {α : Type} {as : List α} {x y : α} {i : ℕ} (h : (as ++ [x])[i]? = some y) :
    as[i]? = some y ∨ (i = as.length ∧ y = x) := by
  rcases Nat.lt_or_ge i as.length with hi | hi
  · rw [List.getElem?_append_left hi] at h
    exact .inl h
  · rw [List.getElem?_append_right hi, List.getElem?_singleton, Option.ite_none_right_eq_some] at h
    exact .inr ⟨by omega, (Option.some.inj h.2).symm⟩

def StagePc.holdsLock : StagePc → Bool
  | .inStage _ => true
  | _ => false

def CallPc.setting : CallPc → Bool
  | .stored | .spawned _ | .assigned _ | .waiting _ | .woken _ => true
  | _ => false

def WorkerPc.tmp : WorkerPc σ π → Option (Job σ π)
  | .holding tmp _ | .stopped tmp _ => tmp
  | _ => none

def Job.amount (ticket : ℕ) (p : Option (Job σ π)) : ℕ := if p.map Job.ticket = some ticket then 1 else 0

@[simp] lemma Job.amount_none {ticket : ℕ} : Job.amount ticket (none : Option (Job σ π)) = 0 := by
  simp [Job.amount]

lemma Job.amount_some {ticket : ℕ} {job : Job σ π} :
    Job.amount ticket (some job) = if job.ticket = ticket then 1 else 0 := by
  simp [Job.amount]

namespace TaskThread

/-- How often the task with a ticket is in `task_`, in the `tmp` of a worker, or completed. -/
def holds (ticket : ℕ) (t : TaskThread σ π) : ℕ :=
  Job.amount ticket t.task + (t.workers.map fun pc => Job.amount ticket pc.tmp).sum +
    (t.completions.map Completion.ticket).count ticket

/-- The object as the last worker sees it. -/
def Fits (t : TaskThread σ π) : WorkerPc σ π → Prop
  | .created | .started | .notified => t.running = false ∧ t.taskLock = false
  | .occupied => t.task.isSome ∧ t.running = false ∧ t.taskLock = false
  | .running | .iterated _ => t.task.isSome ∧ t.running = true ∧ t.taskLock = false
  | .iterating ticket pc =>
    t.task.map Job.ticket = some ticket ∧ t.running = true ∧ t.taskLock = pc.holdsLock
  | .holding tmp _ => t.task = none ∧ tmp.isSome ∧ t.running = true ∧ t.taskLock = false
  | .stopped tmp _ => t.task = none ∧ tmp.isSome ∧ t.running = false ∧ t.taskLock = false
  | .finished => t.task = none ∧ t.running = false ∧ t.taskLock = false

structure Calm (t : TaskThread σ π) : Prop where
  running : t.running = false
  taskLock : t.taskLock = false
  workers : ∀ pc ∈ t.workers, pc = .finished

/-- A thread that was shut down, or given one task since, or two without a `shutdown` between. -/
inductive Shape (t : TaskThread σ π) : Prop
  | quiet (uses : t.uses = 0) (calm : t.Calm) (task : t.task = none) (thread : t.thread = none)
      (call : t.call.setting = false)
  | stored (uses : t.uses = 1) (calm : t.Calm) (thread : t.thread = none) (call : t.call = .stored)
  | single (uses : t.uses = 1) (ws : List (WorkerPc σ π)) (pc : WorkerPc σ π)
      (workers : t.workers = ws ++ [pc]) (old : ∀ p ∈ ws, p = .finished) (fits : t.Fits pc)
      (call : t.call ≠ .stored) (frame : ∀ w, t.call.frame = some w → w = ws.length)
      (thread : t.thread = if t.call = .spawned ws.length then none else some ws.length)
  | doomed (uses : t.uses = 2) (thread : t.thread.isSome)
      (call : t.call = .stored ∨ ∃ w, t.call = .spawned w)

structure Sound (t : TaskThread σ π) : Prop where
  shape : t.fault = none → t.Shape
  reused : t.fault = some .terminated → t.uses = 2

@[simp] lemma goto_task (pc : WorkerPc σ π) : (t.goto w pc).task = t.task := rfl
@[simp] lemma goto_running (pc : WorkerPc σ π) : (t.goto w pc).running = t.running := rfl
@[simp] lemma goto_taskLock (pc : WorkerPc σ π) : (t.goto w pc).taskLock = t.taskLock := rfl
@[simp] lemma goto_thread (pc : WorkerPc σ π) : (t.goto w pc).thread = t.thread := rfl
@[simp] lemma goto_call (pc : WorkerPc σ π) : (t.goto w pc).call = t.call := rfl
@[simp] lemma goto_uses (pc : WorkerPc σ π) : (t.goto w pc).uses = t.uses := rfl
@[simp] lemma goto_fault (pc : WorkerPc σ π) : (t.goto w pc).fault = t.fault := rfl
@[simp] lemma goto_workers (pc : WorkerPc σ π) : (t.goto w pc).workers = t.workers.set w pc := rfl
@[simp] lemma goto_completions (pc : WorkerPc σ π) : (t.goto w pc).completions = t.completions := rfl
@[simp] lemma goto_stagesRun (pc : WorkerPc σ π) : (t.goto w pc).stagesRun = t.stagesRun := rfl

/-- Neither `set_interrupt` nor `shutdown` holds `task_lock_`. -/
def Undisturbed (t : TaskThread σ π) : Prop := t.reached = none ∧ t.call ≠ .reaching

lemma locked_eq_false : t.locked = false ↔ t.taskLock = false ∧ t.Undisturbed := by
  simp [locked, Undisturbed, and_assoc]

lemma killTask_of_some {job : Job σ π} (h : t.task = some job) :
    t.killTask = { t with task := some { job with task := job.task.killed } } := by
  rw [killTask, h]

lemma killTask_of_none (h : t.task = none) : t.killTask = t.fail .undefined := by
  rw [killTask, h]

lemma Fits.congr {pc : WorkerPc σ π} (h : t.Fits pc)
    (htask : t'.task.map Job.ticket = t.task.map Job.ticket) (hrunning : t'.running = t.running)
    (hlock : t'.taskLock = t.taskLock) : t'.Fits pc := by
  have hsome : t'.task.isSome = t.task.isSome := by
    rw [← Option.isSome_map (f := Job.ticket), htask, Option.isSome_map]
  have hnone : t'.task = none ↔ t.task = none := by
    rw [← Option.map_eq_none_iff (f := Job.ticket), htask, Option.map_eq_none_iff]
  cases pc <;> simp only [Fits, hsome, hnone, htask, hrunning, hlock] at h ⊢ <;> exact h

lemma Shape.congr (h : t.Shape) (huses : t'.uses = t.uses) (hworkers : t'.workers = t.workers)
    (htask : t'.task.map Job.ticket = t.task.map Job.ticket) (hrunning : t'.running = t.running)
    (hlock : t'.taskLock = t.taskLock) (hthread : t'.thread = t.thread)
    (hsetting : t'.call.setting = t.call.setting) (hframe : t'.call.frame = t.call.frame)
    (hstored : t'.call = .stored ↔ t.call = .stored)
    (hspawned : ∀ w, t'.call = .spawned w ↔ t.call = .spawned w) : t'.Shape := by
  have hcalm : t.Calm → t'.Calm := fun hc =>
    ⟨hrunning.trans hc.running, hlock.trans hc.taskLock, hworkers ▸ hc.workers⟩
  cases h with
  | quiet uses calm task thread call =>
    apply Shape.quiet (huses.trans uses) (hcalm calm) _ (hthread.trans thread) (hsetting.trans call)
    rw [← Option.map_eq_none_iff (f := Job.ticket), htask, task, Option.map_none]
  | stored uses calm thread call =>
    exact .stored (huses.trans uses) (hcalm calm) (hthread.trans thread) (hstored.mpr call)
  | single uses ws pc workers old fits call frame thread =>
    apply Shape.single (huses.trans uses) ws pc (hworkers.trans workers) old
      (fits.congr htask hrunning hlock) (fun hc => call (hstored.mp hc)) (by rwa [hframe])
    simp only [hthread, thread, hspawned]
  | doomed uses thread call =>
    apply Shape.doomed (huses.trans uses) (hthread ▸ thread)
    simpa only [hstored, hspawned] using call

/-- What one step of worker `w` at a place in its function can do. -/
inductive Works (t : TaskThread σ π) (w : ℕ) (outcome : Bool) : WorkerPc σ π → TaskThread σ π → Prop
  | start (frame : t.call.frame = some w) : Works t w outcome .created (t.goto w .started)
  | notify (call : t.call = .waiting w) :
      Works t w outcome .started { t.goto w .notified with call := .woken w }
  | unheard (call : t.call ≠ .waiting w) (frame : t.call.frame = some w) :
      Works t w outcome .started (t.goto w .notified)
  | dangling {pc : WorkerPc σ π} (frame : t.call.frame ≠ some w) (early : pc = .created ∨ pc = .started) :
      Works t w outcome pc (t.fail .undefined)
  | occupied (task : t.task.isSome) : Works t w outcome .notified (t.goto w .occupied)
  | empty (task : t.task = none) : Works t w outcome .notified (t.goto w .finished)
  | running : Works t w outcome .occupied { t.goto w .running with running := true }
  | enter (job : Job σ π) (task : t.task = some job) : Works t w outcome .running
      { t.goto w (.iterating job.ticket (.next 0)) with
        task := some { job with task := { job.task with iterating := true } } }
  | nested (job : Job σ π) (task : t.task = some job) (iterating : job.task.iterating = true) :
      Works t w outcome .running (t.goto w (.iterated false))
  | gone {pc : WorkerPc σ π} (task : t.task = none)
      (uses : pc = .running ∨ ∃ ticket at', pc = .iterating ticket at') :
      Works t w outcome pc (t.fail .undefined)
  | stale (job : Job σ π) (ticket : ℕ) (pc : StagePc) (task : t.task = some job)
      (other : job.ticket ≠ ticket) : Works t w outcome (.iterating ticket pc) (t.fail .undefined)
  | stage (job : Job σ π) (k : ℕ) (task : t.task = some job) (more : k < job.task.stages.length)
      (lock : t.locked = false) :
      Works t w outcome (.iterating job.ticket (.next k))
        { t.goto w (.iterating job.ticket (.inStage k)) with
          taskLock := true, stagesRun := t.stagesRun ++ [(job.ticket, k)] }
  | ran (job : Job σ π) (k : ℕ) (task : t.task = some job) :
      Works t w outcome (.iterating job.ticket (.inStage k))
        { t.goto w (.iterating job.ticket (.ranStage k outcome)) with taskLock := false }
  | exhausted (job : Job σ π) (k : ℕ) (task : t.task = some job) (done : job.task.stages.length ≤ k) :
      Works t w outcome (.iterating job.ticket (.next k)) (t.goto w (.iterating job.ticket (.allOf true)))
  | read (job : Job σ π) (k : ℕ) (status : Bool) (task : t.task = some job) :
      Works t w outcome (.iterating job.ticket (.ranStage k status))
        (t.goto w (.iterating job.ticket (.visited k (status && !t.interrupt))))
  | pass (job : Job σ π) (k : ℕ) (task : t.task = some job) (ended : outcome = true)
      (alive : job.task.kill = false) :
      Works t w outcome (.iterating job.ticket (.visited k true))
        (t.goto w (.iterating job.ticket (.next (k + 1))))
  | giveUp (job : Job σ π) (k : ℕ) (cont : Bool) (task : t.task = some job)
      (bad : (cont && outcome && !job.task.kill) = false) :
      Works t w outcome (.iterating job.ticket (.visited k cont))
        (t.goto w (.iterating job.ticket (.allOf false)))
  | iterated (job : Job σ π) (ranAll : Bool) (task : t.task = some job) :
      Works t w outcome (.iterating job.ticket (.allOf ranAll))
        { t.goto w (.iterated ranAll) with
          task := some { job with task := { job.task with iterating := false } } }
  | take (allRan : Bool) : Works t w outcome (.iterated allRan)
      { t.goto w (.holding t.task allRan) with task := none }
  | stop (tmp : Option (Job σ π)) (allRan : Bool) : Works t w outcome (.holding tmp allRan)
      { t.goto w (.stopped tmp allRan) with running := false }
  | null (allRan : Bool) : Works t w outcome (.stopped none allRan) (t.fail .undefined)
  | complete (job : Job σ π) (allRan : Bool) : Works t w outcome (.stopped (some job) allRan)
      { t.goto w .finished with
        completions := t.completions ++ [⟨job.ticket, allRan, job.task.complete allRan⟩] }

lemma iterateStages_cases {job : Job σ π} {pc : StagePc} (htask : t.task = some job)
    (hs : t.iterateStages w job outcome pc = some t') :
    Works t w outcome (.iterating job.ticket pc) t' := by
  cases pc with
  | next k =>
    simp only [iterateStages] at hs
    split at hs
    · cases hlock : t.locked with
      | true => simp [hlock] at hs
      | false =>
        simp only [hlock, Bool.false_eq_true, if_false, Option.some.injEq] at hs
        exact hs ▸ .stage job k htask ‹_› hlock
    · obtain rfl := Option.some.inj hs
      exact .exhausted job k htask (by omega)
  | inStage k =>
    obtain rfl := Option.some.inj hs
    exact .ran job k htask
  | ranStage k status =>
    obtain rfl := Option.some.inj hs
    exact .read job k status htask
  | visited k cont =>
    simp only [iterateStages] at hs
    split at hs <;> rename_i hcont <;> obtain rfl := Option.some.inj hs
    · simp only [Bool.and_eq_true, Bool.not_eq_true'] at hcont
      obtain ⟨⟨rfl, ended⟩, alive⟩ := hcont
      exact .pass job k htask ended alive
    · exact .giveUp job k cont htask (Bool.eq_false_iff.mpr hcont)
  | allOf ranAll =>
    obtain rfl := Option.some.inj hs
    exact .iterated job ranAll htask

lemma work_cases (hs : t.work w outcome = some t') :
    ∃ pc, t.workers[w]? = some pc ∧ Works t w outcome pc t' := by
  unfold work at hs
  cases hpc : t.workers[w]? with
  | none => simp [hpc] at hs
  | some pc =>
    refine ⟨pc, rfl, ?_⟩
    cases pc with
    | created =>
      simp only [hpc] at hs
      split at hs <;> obtain rfl := Option.some.inj hs
      · exact .start ‹_›
      · exact .dangling ‹_› (.inl rfl)
    | started =>
      simp only [hpc] at hs
      split at hs
      · obtain rfl := Option.some.inj hs
        exact .notify ‹_›
      · split at hs <;> obtain rfl := Option.some.inj hs
        · exact .unheard ‹_› ‹_›
        · exact .dangling ‹_› (.inr rfl)
    | notified =>
      simp only [hpc] at hs
      obtain rfl := Option.some.inj hs
      cases htask : t.task with
      | none => simpa [htask] using Works.empty htask
      | some job => simpa [htask] using Works.occupied (t := t) (w := w) (by simp [htask])
    | occupied =>
      simp only [hpc] at hs
      obtain rfl := Option.some.inj hs
      exact .running
    | running =>
      cases htask : t.task with
      | none =>
        simp only [hpc, htask] at hs
        obtain rfl := Option.some.inj hs
        exact .gone htask (.inl rfl)
      | some job =>
        simp only [hpc, htask] at hs
        split at hs <;> obtain rfl := Option.some.inj hs
        · exact .nested job htask ‹_›
        · exact .enter job htask
    | iterating ticket pc =>
      cases htask : t.task with
      | none =>
        simp only [hpc, htask] at hs
        obtain rfl := Option.some.inj hs
        exact .gone htask (.inr ⟨ticket, pc, rfl⟩)
      | some job =>
        simp only [hpc, htask] at hs
        by_cases hticket : job.ticket = ticket
        · subst hticket
          rw [if_pos rfl] at hs
          exact iterateStages_cases htask hs
        · rw [if_neg hticket] at hs
          obtain rfl := Option.some.inj hs
          exact .stale job ticket pc htask hticket
    | iterated allRan =>
      simp only [hpc] at hs
      obtain rfl := Option.some.inj hs
      exact .take allRan
    | holding tmp allRan =>
      simp only [hpc] at hs
      obtain rfl := Option.some.inj hs
      exact .stop tmp allRan
    | stopped tmp allRan =>
      simp only [hpc] at hs
      cases tmp with
      | none =>
        obtain rfl := Option.some.inj hs
        exact .null allRan
      | some job =>
        obtain rfl := Option.some.inj hs
        exact .complete job allRan
    | finished => simp [hpc] at hs

/-- What one step of a call of `set_task_and_run` or `shutdown` can do. -/
inductive Proceeds (t : TaskThread σ π) : TaskThread σ π → Prop
  | spawn (call : t.call = .stored) :
      Proceeds t { t with workers := t.workers ++ [.created], call := .spawned t.workers.length }
  | terminate (w : ℕ) (call : t.call = .spawned w) (thread : t.thread.isSome) : Proceeds t (t.fail .terminated)
  | assign (w : ℕ) (call : t.call = .spawned w) (thread : t.thread = none) :
      Proceeds t { t with thread := some w, call := .assigned w }
  | wait (w : ℕ) (call : t.call = .assigned w) : Proceeds t { t with call := .waiting w }
  | leave (w : ℕ) (call : t.call = .woken w) : Proceeds t { t with call := .idle }
  | stop (call : t.call = .stopping) (running : t.running = true) : Proceeds t { t with call := .killing }
  | spare (call : t.call = .stopping) (running : t.running = false) : Proceeds t { t with call := .joining }
  | look (call : t.call = .killing) (lock : t.locked = false) :
      Proceeds t { t with call := if t.task.isSome then .reaching else .interrupting }
  | kill (job : Job σ π) (call : t.call = .reaching) (task : t.task = some job) :
      Proceeds t { t with task := some { job with task := job.task.killed }, call := .interrupting }
  | crash (call : t.call = .reaching) (task : t.task = none) :
      Proceeds t { t.fail .undefined with call := .interrupting }
  | interrupt (call : t.call = .interrupting) : Proceeds t { t with interrupt := true, call := .joining }
  | unused (call : t.call = .joining) (thread : t.thread = none) : Proceeds t { t with call := .idle, uses := 0 }
  | join (w : ℕ) (call : t.call = .joining) (thread : t.thread = some w)
      (finished : t.workers[w]? = some .finished) : Proceeds t { t with thread := none, call := .idle, uses := 0 }

lemma proceed_cases (hs : t.proceed = some t') : t.Proceeds t' := by
  unfold TaskThread.proceed at hs
  cases hcall : t.call with
  | idle | waiting w => simp [hcall] at hs
  | stored =>
    simp only [hcall, Option.some.injEq] at hs
    exact hs ▸ .spawn hcall
  | spawned w =>
    simp only [hcall] at hs
    split at hs <;> rename_i hthread <;> obtain rfl := Option.some.inj hs
    · exact .terminate w hcall hthread
    · simpa only [hcall] using Proceeds.assign w hcall (by simpa using hthread)
  | assigned w =>
    simp only [hcall, Option.some.injEq] at hs
    exact hs ▸ .wait w hcall
  | woken w =>
    simp only [hcall, Option.some.injEq] at hs
    exact hs ▸ .leave w hcall
  | stopping =>
    simp only [hcall, Option.some.injEq] at hs
    subst hs
    cases hrunning : t.running with
    | true => simpa only [hrunning, if_true] using Proceeds.stop hcall hrunning
    | false => simpa only [hrunning, Bool.false_eq_true, if_false] using Proceeds.spare hcall hrunning
  | killing =>
    simp only [hcall, Option.ite_none_left_eq_some, Option.some.injEq] at hs
    obtain ⟨hlock, rfl⟩ := hs
    exact .look hcall (Bool.eq_false_iff.mpr hlock)
  | reaching =>
    simp only [hcall, Option.some.injEq] at hs
    subst hs
    cases htask : t.task with
    | none => simpa only [killTask_of_none htask] using Proceeds.crash hcall htask
    | some job => simpa only [killTask_of_some htask] using Proceeds.kill job hcall htask
  | interrupting =>
    simp only [hcall, Option.some.injEq] at hs
    exact hs ▸ .interrupt hcall
  | joining =>
    simp only [hcall] at hs
    split at hs
    · obtain rfl := Option.some.inj hs
      simpa only [hcall] using Proceeds.unused hcall ‹_›
    · split at hs
      · obtain rfl := Option.some.inj hs
        simpa only [hcall] using Proceeds.join _ hcall ‹_› ‹_›
      · simp at hs

inductive Acts (t : TaskThread σ π) : Action σ π → TaskThread σ π → Prop
  | set (task : Option (Job σ π)) (idle : t.call = .idle) (lock : t.locked = false) :
      Acts t (.setTaskAndRun task) { t with task := task, call := .stored, uses := t.uses + 1 }
  | shutdown (idle : t.call = .idle) : Acts t .shutdown { t with call := .stopping }
  | proceed {t' : TaskThread σ π} (proceed : t.proceed = some t') : Acts t .proceed t'
  | wake (w : ℕ) (waiting : t.call = .waiting w) : Acts t .wake { t with call := .woken w }
  | work (w : ℕ) (outcome : Bool) (pc : WorkerPc σ π) {t' : TaskThread σ π} (at' : t.workers[w]? = some pc)
      (works : Works t w outcome pc t') : Acts t (.work w outcome) t'
  | reach (b : Bool) (lock : t.locked = false) (task : t.task.isSome) :
      Acts t (.setInterrupt b) { t with reached := some b }
  | skip (b : Bool) (lock : t.locked = false) (task : t.task = none) :
      Acts t (.setInterrupt b) { t with interrupts := t.interrupts ++ [b] }
  | kill (b : Bool) (job : Job σ π) (reached : t.reached = some b) (task : t.task = some job) :
      Acts t .kill { t with
        task := some { job with task := job.task.killed }, reached := none, interrupts := t.interrupts ++ [b] }
  | crash (b : Bool) (reached : t.reached = some b) (task : t.task = none) :
      Acts t .kill { t.fail .undefined with reached := none, interrupts := t.interrupts ++ [b] }
  | store (n : ℕ) (b : Bool) (pending : t.interrupts[n]? = some b) :
      Acts t (.storeInterrupt n) { t with interrupt := b, interrupts := t.interrupts.eraseIdx n }

lemma step_fault (hs : t.step a = some t') : t.fault = none := by
  unfold TaskThread.step at hs
  split at hs
  · simp at hs
  · simpa using ‹¬ t.fault.isSome = true›

lemma step_acts (hs : t.step a = some t') : t.Acts a t' := by
  have hf := step_fault hs
  cases a with
  | setTaskAndRun task =>
    simp only [TaskThread.step, hf, Option.isSome_none, Bool.false_eq_true, if_false,
      Option.ite_none_right_eq_some, Option.some.injEq] at hs
    obtain ⟨⟨hidle, hlock⟩, rfl⟩ := hs
    simpa only [hf] using Acts.set task hidle hlock
  | shutdown =>
    simp only [TaskThread.step, hf, Option.isSome_none, Bool.false_eq_true, if_false,
      Option.ite_none_right_eq_some, Option.some.injEq] at hs
    obtain ⟨hidle, rfl⟩ := hs
    simpa only [hf] using Acts.shutdown hidle
  | proceed => exact .proceed (by simpa [TaskThread.step, hf] using hs)
  | wake =>
    cases hcall : t.call with
    | waiting w =>
      simp only [TaskThread.step, hf, Option.isSome_none, Bool.false_eq_true, if_false, hcall,
        Option.some.injEq] at hs
      subst hs
      simpa only [hf] using Acts.wake w hcall
    | _ => simp [TaskThread.step, hcall] at hs
  | work w outcome =>
    obtain ⟨pc, hpc, hw⟩ := work_cases (by simpa [TaskThread.step, hf] using hs)
    exact .work w outcome pc hpc hw
  | setInterrupt b =>
    simp only [TaskThread.step, hf, Option.isSome_none, Bool.false_eq_true, if_false,
      Option.ite_none_left_eq_some, Bool.not_eq_true] at hs
    obtain ⟨hlock, hs⟩ := hs
    cases htask : t.task with
    | none =>
      simp only [htask, Option.isSome_none, Bool.false_eq_true, if_false, Option.some.injEq] at hs
      exact hs ▸ by simpa only [hf, htask] using Acts.skip b hlock htask
    | some job =>
      simp only [htask, Option.isSome_some, if_true, Option.some.injEq] at hs
      exact hs ▸ by simpa only [hf, htask] using Acts.reach b hlock (by simp [htask])
  | kill =>
    cases hreached : t.reached with
    | none => simp [TaskThread.step, hreached] at hs
    | some b =>
      simp only [TaskThread.step, hf, Option.isSome_none, Bool.false_eq_true, if_false, hreached,
        Option.some.injEq] at hs
      subst hs
      cases htask : t.task with
      | none => simpa only [hf, killTask_of_none htask] using Acts.crash b hreached htask
      | some job => simpa only [hf, killTask_of_some htask] using Acts.kill b job hreached htask
  | storeInterrupt n =>
    cases hb : t.interrupts[n]? with
    | none => simp [TaskThread.step, hb] at hs
    | some b =>
      simp only [TaskThread.step, hf, Option.isSome_none, Bool.false_eq_true, if_false, hb,
        Option.some.injEq] at hs
      subst hs
      simpa only [hf] using Acts.store n b hb

lemma Works.frame {pc : WorkerPc σ π} (h : Works t w outcome pc t') :
    t'.uses = t.uses ∧ t'.thread = t.thread ∧ (t'.fault = t.fault ∨ t'.fault = some .undefined) ∧
      (t'.call = t.call ∨ t.call = .waiting w ∧ t'.call = .woken w) := by
  cases h with
  | notify call => exact ⟨rfl, rfl, .inl rfl, .inr ⟨call, rfl⟩⟩
  | dangling | gone | stale | null => exact ⟨rfl, rfl, .inr rfl, .inl rfl⟩
  | _ => exact ⟨rfl, rfl, .inl rfl, .inl rfl⟩

lemma Works.reached {pc : WorkerPc σ π} (h : Works t w outcome pc t') : t'.reached = t.reached := by
  cases h <;> rfl

lemma Works.undisturbed {pc : WorkerPc σ π} (h : Works t w outcome pc t') (hfree : t.Undisturbed) : t'.Undisturbed := by
  refine ⟨h.reached.trans hfree.1, ?_⟩
  rcases h.frame.2.2.2 with hcall | ⟨-, hcall⟩
  · exact hcall ▸ hfree.2
  · simp [hcall]

lemma Works.not_finished {pc : WorkerPc σ π} (h : Works t w outcome pc t') : pc ≠ .finished := by
  rintro rfl
  cases h with
  | dangling _ early => simp at early
  | gone _ uses => simp at uses

lemma Calm.not_works {pc : WorkerPc σ π} (h : t.Calm) (hpc : t.workers[w]? = some pc) :
    ¬ Works t w outcome pc t' :=
  fun hw => hw.not_finished (h.workers pc (List.mem_of_getElem? hpc))

lemma Works.holds {ticket : ℕ} {pc : WorkerPc σ π} (h : Works t w outcome pc t')
    (hpc : t.workers[w]? = some pc) : t'.holds ticket = t.holds ticket := by
  have hset : ∀ pc', ((t.goto w pc').workers.map fun pc => Job.amount ticket pc.tmp).sum +
      Job.amount ticket pc.tmp = (t.workers.map fun pc => Job.amount ticket pc.tmp).sum +
        Job.amount ticket pc'.tmp := fun pc' => sum_map_set _ hpc
  cases h with
  | dangling | gone | stale | null => rfl
  | enter job task | iterated job _ task =>
    have hsum := hset .created
    simp only [TaskThread.holds, WorkerPc.tmp, Job.amount_none, Job.amount_some, task, goto_workers,
      goto_completions, List.map_set] at hsum ⊢
    omega
  | take allRan =>
    have hsum := hset (.holding t.task allRan)
    simp only [TaskThread.holds, WorkerPc.tmp, Job.amount_none, goto_workers, goto_completions] at hsum ⊢
    omega
  | stop tmp allRan =>
    have hsum := hset (.stopped tmp allRan)
    simp only [TaskThread.holds, WorkerPc.tmp, goto_workers, goto_completions, goto_task] at hsum ⊢
    omega
  | complete job allRan =>
    have hsum := hset .finished
    have hcount : Job.amount ticket (some job) = [job.ticket].count ticket := by
      simp [Job.amount, List.count_singleton]
    simp only [TaskThread.holds, WorkerPc.tmp, Job.amount_none, goto_workers, goto_task, List.map_append,
      List.map_singleton, List.count_append] at hsum ⊢
    omega
  | _ =>
    have hsum := hset .created
    simp only [TaskThread.holds, WorkerPc.tmp, Job.amount_none, goto_workers, goto_completions, goto_task,
      List.map_set] at hsum ⊢
    omega

lemma Works.stagesRun {ticket k : ℕ} {pc : WorkerPc σ π} (h : Works t w outcome pc t')
    (hmem : (ticket, k) ∈ t'.stagesRun) : (ticket, k) ∈ t.stagesRun ∨ t.task.map Job.ticket = some ticket := by
  cases h with
  | stage job j task more lock =>
    rcases List.mem_append.mp hmem with hmem | hmem
    · exact .inl hmem
    · simp only [List.mem_singleton, Prod.mk.injEq] at hmem
      exact .inr (by rw [task, hmem.1, Option.map_some])
  | _ => exact .inl hmem

lemma Works.fits {pc : WorkerPc σ π} {ws : List (WorkerPc σ π)} (h : Works t w outcome pc t')
    (hworkers : t.workers = ws ++ [pc]) (hw : w = ws.length) (hfits : t.Fits pc)
    (hf : t'.fault = none) : ∃ pc', t'.workers = ws ++ [pc'] ∧ t'.Fits pc' := by
  have hset : ∀ pc', (t.goto w pc').workers = ws ++ [pc'] := by
    intro pc'
    simp [goto, hworkers, hw]
  cases h with
  | start => exact ⟨_, hset _, hfits⟩
  | notify => exact ⟨_, hset _, hfits⟩
  | unheard => exact ⟨_, hset _, hfits⟩
  | occupied task => exact ⟨_, hset _, task, hfits⟩
  | empty task => exact ⟨_, hset _, task, hfits⟩
  | running => exact ⟨_, hset _, hfits.1, rfl, hfits.2.2⟩
  | enter job task => exact ⟨_, hset _, rfl, hfits.2⟩
  | nested job task => exact ⟨_, hset _, by simp [task], hfits.2⟩
  | stage job k task more lock => exact ⟨_, hset _, hfits.1, hfits.2.1, rfl⟩
  | ran job k task => exact ⟨_, hset _, hfits.1, hfits.2.1, rfl⟩
  | exhausted | read | pass | giveUp => exact ⟨_, hset _, hfits⟩
  | iterated job ranAll task => exact ⟨_, hset _, rfl, hfits.2⟩
  | take allRan => exact ⟨_, hset _, rfl, hfits⟩
  | stop tmp allRan => exact ⟨_, hset _, hfits.1, hfits.2.1, rfl, hfits.2.2.2⟩
  | complete job allRan => exact ⟨_, hset _, hfits.1, hfits.2.2⟩
  | dangling | gone | stale | null => simp [fail] at hf

lemma Sound.of_none (hf : t.fault = none) (h : t.Shape) : t.Sound :=
  ⟨fun _ => h, fun h' => by simp [hf] at h'⟩

lemma Sound.of_undefined (hf : t.fault = some .undefined) : t.Sound :=
  ⟨fun h => by simp [hf] at h, fun h => by simp [hf] at h⟩

lemma Shape.work {pc' : WorkerPc σ π} (h : t.Shape) (hf : t.fault = none) (hpc' : t.workers[w]? = some pc')
    (hw : Works t w outcome pc' t') : t'.Sound := by
  obtain ⟨huses, hthread, hfault, hcall⟩ := hw.frame
  rcases hfault with hfault | hfault
  · have hf' : t'.fault = none := hfault.trans hf
    apply Sound.of_none hf'
    cases h with
    | quiet uses calm => exact absurd hw (calm.not_works hpc')
    | stored uses calm => exact absurd hw (calm.not_works hpc')
    | single uses ws pc workers old fits call frame thread =>
      have hlast : w = ws.length ∧ pc' = pc := by
        rcases append_cases (workers ▸ hpc') with hold | hlast
        · exact absurd (old pc' (List.mem_of_getElem? hold)) hw.not_finished
        · exact hlast
      obtain ⟨rfl, rfl⟩ := hlast
      obtain ⟨pc'', hworkers, hfits⟩ := hw.fits workers rfl fits hf'
      rcases hcall with hcall | ⟨hwaiting, hwoken⟩
      · exact .single (huses.trans uses) ws pc'' hworkers old hfits (hcall ▸ call) (hcall ▸ frame)
          (by rw [hthread, thread, hcall])
      · apply Shape.single (huses.trans uses) ws pc'' hworkers old hfits
        · simp [hwoken]
        · simp [hwoken, CallPc.frame]
        · simp [hthread, thread, hwaiting, hwoken]
    | doomed uses thread call =>
      apply Shape.doomed (huses.trans uses) (hthread ▸ thread)
      rcases hcall with hcall | ⟨hwaiting, -⟩
      · exact hcall ▸ call
      · simp [hwaiting] at call
  · exact .of_undefined hfault

lemma Shape.pass {c : CallPc} (h : t.Shape) (hsetting : t.call.setting = true) (hstored : t.call ≠ .stored)
    (hspawned : ∀ w, t.call ≠ .spawned w) (hstored' : c ≠ .stored) (hspawned' : ∀ w, c ≠ .spawned w)
    (hframe : ∀ w, c.frame = some w → t.call.frame = some w) : { t with call := c }.Shape := by
  cases h with
  | quiet uses calm task thread call => simp [hsetting] at call
  | stored uses calm thread call => exact absurd call hstored
  | single uses ws pc workers old fits call frame thread =>
    refine .single uses ws pc workers old (fits.congr rfl rfl rfl) hstored' ?_ ?_
    · exact fun w hw => frame w (hframe w hw)
    · rw [if_neg (hspawned' _)]
      exact thread.trans (if_neg (hspawned _))
  | doomed uses thread call =>
    rcases call with call | ⟨w, call⟩
    · exact absurd call hstored
    · exact absurd call (hspawned w)

lemma Shape.proceed (h : t.Shape) (hf : t.fault = none) (hs : t.proceed = some t') : t'.Sound := by
  cases proceed_cases hs with
  | spawn hcall =>
    refine .of_none hf ?_
    cases h with
    | quiet uses calm task thread call => simp [hcall, CallPc.setting] at call
    | stored uses calm thread call =>
      refine .single uses t.workers .created rfl calm.workers ⟨calm.running, calm.taskLock⟩ ?_ ?_ ?_
      · simp
      · simp [CallPc.frame]
      · simp [thread]
    | single uses ws pc workers old fits call frame thread => exact absurd hcall call
    | doomed uses thread call => exact .doomed uses thread (.inr ⟨_, rfl⟩)
  | terminate w hcall hthread =>
    cases h with
    | quiet uses calm task thread call => simp [hcall, CallPc.setting] at call
    | stored uses calm thread call => simp [hcall] at call
    | single uses ws pc workers old fits call frame thread =>
      obtain rfl : w = ws.length := frame w (by simp [hcall, CallPc.frame])
      simp [thread, hcall] at hthread
    | doomed uses thread call => exact ⟨fun h => by simp [fail] at h, fun _ => uses⟩
  | assign w hcall hthread =>
    refine .of_none hf ?_
    cases h with
    | quiet uses calm task thread call => simp [hcall, CallPc.setting] at call
    | stored uses calm thread call => simp [hcall] at call
    | single uses ws pc workers old fits call frame thread =>
      obtain rfl : w = ws.length := frame w (by simp [hcall, CallPc.frame])
      refine .single uses ws pc workers old (fits.congr rfl rfl rfl) ?_ ?_ ?_ <;> simp [CallPc.frame]
    | doomed uses thread call => simp [hthread] at thread
  | wait w hcall =>
    refine .of_none hf (h.pass ?_ ?_ ?_ ?_ ?_ ?_) <;> simp [hcall, CallPc.setting, CallPc.frame]
  | leave w hcall =>
    refine .of_none hf (h.pass ?_ ?_ ?_ ?_ ?_ ?_) <;> simp [hcall, CallPc.setting, CallPc.frame]
  | stop hcall | spare hcall | interrupt hcall =>
    refine .of_none hf (h.congr rfl rfl rfl rfl rfl rfl ?_ ?_ ?_ ?_) <;>
      simp [hcall, CallPc.setting, CallPc.frame]
  | look hcall =>
    refine .of_none hf (h.congr rfl rfl rfl rfl rfl rfl ?_ ?_ ?_ ?_) <;>
      cases t.task <;> simp [hcall, CallPc.setting, CallPc.frame]
  | kill job hcall htask =>
    refine .of_none hf (h.congr rfl rfl (by simp [htask]) rfl rfl rfl ?_ ?_ ?_ ?_) <;>
      simp [hcall, CallPc.setting, CallPc.frame]
  | crash => exact .of_undefined rfl
  | unused hcall hthread =>
    refine .of_none hf ?_
    cases h with
    | quiet uses calm task thread call =>
      exact .quiet rfl ⟨calm.running, calm.taskLock, calm.workers⟩ task thread rfl
    | stored uses calm thread call => simp [hcall] at call
    | single uses ws pc workers old fits call frame thread => simp [hthread, hcall] at thread
    | doomed uses thread call => simp [hthread] at thread
  | join w hcall hthread hpc =>
    refine .of_none hf ?_
    cases h with
    | quiet uses calm task thread call => simp [hthread] at thread
    | stored uses calm thread call => simp [hcall] at call
    | single uses ws pc workers old fits call frame thread =>
      simp only [hthread, hcall, reduceCtorEq, if_false, Option.some.injEq] at thread
      subst thread
      obtain rfl : pc = .finished := by simpa [workers] using hpc
      obtain ⟨htask, hrunning, hlock⟩ := fits
      refine .quiet rfl ⟨hrunning, hlock, ?_⟩ htask rfl rfl
      intro p hp
      rcases List.mem_append.mp (workers ▸ hp) with hp | hp
      · exact old p hp
      · exact List.mem_singleton.mp hp
    | doomed uses thread call => simp [hcall] at call

lemma Sound.step (h : t.Sound) (hs : t.step a = some t') : t'.Sound := by
  have hf := step_fault hs
  have hshape := h.shape hf
  cases step_acts hs with
  | set task hidle hlock =>
    refine .of_none hf ?_
    cases hshape with
    | quiet uses calm task thread call =>
      exact .stored (by simp [uses]) ⟨calm.running, calm.taskLock, calm.workers⟩ thread rfl
    | stored uses calm thread call => simp [hidle] at call
    | single uses ws pc workers old fits call frame thread =>
      exact .doomed (by simp [uses]) (by simp [thread, hidle]) (.inl rfl)
    | doomed uses thread call => simp [hidle] at call
  | shutdown hidle =>
    refine .of_none hf (hshape.congr rfl rfl rfl rfl rfl rfl ?_ ?_ ?_ ?_) <;>
      simp [hidle, CallPc.setting, CallPc.frame]
  | proceed hs => exact hshape.proceed hf hs
  | wake w hcall =>
    refine .of_none hf (hshape.pass ?_ ?_ ?_ ?_ ?_ ?_) <;> simp [hcall, CallPc.setting, CallPc.frame]
  | work w outcome pc hpc hw => exact hshape.work hf hpc hw
  | reach b | skip b =>
    exact .of_none hf (hshape.congr rfl rfl rfl rfl rfl rfl rfl rfl Iff.rfl fun _ => Iff.rfl)
  | kill b job _ htask =>
    exact .of_none hf (hshape.congr rfl rfl (by simp [htask]) rfl rfl rfl rfl rfl Iff.rfl fun _ => Iff.rfl)
  | crash => exact .of_undefined rfl
  | store n b hb =>
    exact .of_none hf (hshape.congr rfl rfl rfl rfl rfl rfl rfl rfl Iff.rfl fun _ => Iff.rfl)

lemma proceed_keeps (ticket : ℕ) (hs : t.proceed = some t') :
    t'.holds ticket = t.holds ticket ∧ t'.stagesRun = t.stagesRun := by
  cases proceed_cases hs with
  | spawn => simp [TaskThread.holds, WorkerPc.tmp]
  | kill job _ htask =>
    refine ⟨?_, rfl⟩
    simp only [TaskThread.holds, htask, Job.amount_some]
  | _ => exact ⟨rfl, rfl⟩

lemma setTaskAndRun_holds {task : Option (Job σ π)} (ticket : ℕ)
    (hs : t.step (.setTaskAndRun task) = some t') :
    t'.holds ticket + Job.amount ticket t.task = t.holds ticket + Job.amount ticket task ∧
      t'.stagesRun = t.stagesRun ∧ t'.uses = t.uses + 1 ∧ t'.call = .stored ∧ t.call = .idle := by
  cases step_acts hs with
  | set _ hidle hlock =>
    refine ⟨?_, rfl, rfl, rfl, hidle⟩
    simp only [TaskThread.holds]
    omega

def Action.internal : Action σ π → Bool
  | .wake | .work _ _ => true
  | _ => false

structure Kept (t t' : TaskThread σ π) : Prop where
  uses : t'.uses = t.uses
  holds : ∀ ticket, t'.holds ticket = t.holds ticket
  stagesRun : ∀ ticket k, (ticket, k) ∈ t'.stagesRun →
    (ticket, k) ∈ t.stagesRun ∨ t.task.map Job.ticket = some ticket

structure Inside (t t' : TaskThread σ π) : Prop extends Kept t t' where
  thread : t'.thread = t.thread
  call : t'.call = t.call ∨ ∃ w, t.call = .waiting w ∧ t'.call = .woken w
  fault : t'.fault ≠ some .terminated

lemma step_inside (ha : a.internal = true) (hs : t.step a = some t') : t.Inside t' := by
  have hf := step_fault hs
  cases step_acts hs with
  | wake w hcall =>
    exact ⟨⟨rfl, fun _ => rfl, fun _ _ h => .inl h⟩, rfl, .inr ⟨w, hcall, rfl⟩, by simp [hf]⟩
  | work w outcome pc hpc hw =>
    obtain ⟨huses, hthread, hfault, hcall⟩ := hw.frame
    refine ⟨⟨huses, fun _ => hw.holds hpc, fun _ _ => hw.stagesRun⟩, hthread,
      hcall.imp id fun h => ⟨w, h⟩, ?_⟩
    rcases hfault with hfault | hfault <;> simp [hfault, hf]
  | _ => simp [Action.internal] at ha

lemma step_proceed (hs : t.step .proceed = some t') : t.proceed = some t' := by
  simpa [TaskThread.step, step_fault hs] using hs

lemma step_reached (ha : ∀ b, a ≠ .setInterrupt b) (hfree : t.reached = none) (hs : t.step a = some t') :
    t'.reached = none := by
  cases step_acts hs with
  | proceed hs =>
    cases proceed_cases hs with
    | _ => exact hfree
  | work w outcome pc hpc hw => exact hw.reached.trans hfree
  | reach b => exact absurd rfl (ha b)
  | kill | crash => rfl
  | _ => exact hfree

lemma proceed_setting (hcall : t.call.setting = true) (hs : t.proceed = some t') :
    t'.uses = t.uses ∧ (t'.call = .idle ∨ t'.call.setting = true) := by
  cases proceed_cases hs with
  | terminate => exact ⟨rfl, .inr hcall⟩
  | spawn | assign | wait | leave => simp [CallPc.setting]
  | stop hc | spare hc | look hc | kill _ hc | crash hc | interrupt hc | unused hc | join _ hc =>
    simp [hc, CallPc.setting] at hcall

lemma proceed_kept (hcall : t.call.setting = true) (hs : t.proceed = some t') : t.Kept t' where
  uses := (proceed_setting hcall hs).1
  holds _ := (proceed_keeps _ hs).1
  stagesRun _ _ h := .inl ((proceed_keeps 0 hs).2 ▸ h)

lemma holds_of_task {ticket : ℕ} (h : t.task.map Job.ticket = some ticket) : t.holds ticket ≠ 0 := by
  simp [TaskThread.holds, Job.amount, h]

lemma sound_init : (init : TaskThread σ π).Sound :=
  .of_none rfl (.quiet rfl ⟨rfl, rfl, by simp [init]⟩ rfl rfl rfl)

lemma reachable_step (h : system.Reachable t) (hs : t.step a = some t') : system.Reachable t' :=
  System.Reachable.step (M := system) h hs

lemma sound (h : (system (σ := σ) (π := π)).Reachable t) : t.Sound :=
  h.invariant sound_init fun _ _ _ hs => hs.step

end TaskThread

end DagScheduler.Scheduling

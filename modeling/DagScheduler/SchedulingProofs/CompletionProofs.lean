import DagScheduler.SchedulingProofs.ServingProofs

/-! What a task is told when it is over, and what an interrupt has to do with it. -/

namespace DagScheduler.Scheduling

open Graphs Library.Transitions

variable {σ π : Type}

def CallPc.closing : CallPc → Bool
  | .stopping | .killing | .reaching | .interrupting | .joining => true
  | _ => false

namespace TaskThread

variable {t t' t₀ t₁ : TaskThread σ π} {w : ℕ} {outcome : Bool} {pc : WorkerPc σ π} {a : Action σ π}
  {job j : Job σ π} {c₀ : List (Completion π)} {h : List (TaskThread σ π × Action σ π)}
  {e : TaskThread σ π × Action σ π}

/-- `set_interrupt`, or `shutdown` through it, kills the task in `task_`. -/
def Kills (e : TaskThread σ π × Action σ π) : Prop :=
  e.1.task.isSome ∧ (e.2 = .kill ∧ e.1.reached.isSome ∨ e.2 = .proceed ∧ e.1.call = .reaching)

def store : TaskThread σ π × Action σ π → Option Bool
  | (t, .storeInterrupt n) => t.interrupts[n]?
  | (t, .proceed) => if t.call = .interrupting then some true else none
  | _ => none

def stores (h : List (TaskThread σ π × Action σ π)) : List Bool := h.filterMap store

/-- An interrupt is set, on its way, or about to be sent by `shutdown`. -/
def Raised (t : TaskThread σ π) : Prop :=
  t.interrupt = true ∨ t.reached = some true ∨ true ∈ t.interrupts ∨ t.call.closing = true

lemma proceed_frame (hs : t.proceed = some t') :
    t'.completions = t.completions ∧ t'.interrupts = t.interrupts ∧ t'.reached = t.reached ∧
    (t'.task = t.task ∧ t.call ≠ .reaching ∨
      t'.task = t.task.map (fun job => { job with task := job.task.killed }) ∧ t.call = .reaching) ∧
    (t'.interrupt = t.interrupt ∧ t.call ≠ .interrupting ∨ t'.interrupt = true ∧ t.call = .interrupting) ∧
    (t'.call.closing = true → t.call.closing = true) := by
  cases proceed_cases hs with
  | terminate _ hcall => simp [fail, CallPc.closing, hcall]
  | look hcall => simp [hcall, CallPc.closing]
  | kill job hcall htask => simp [hcall, htask, CallPc.closing]
  | crash hcall htask => simp [fail, hcall, htask, CallPc.closing]
  | spawn hcall | stop hcall | spare hcall | interrupt hcall | unused hcall => simp [hcall, CallPc.closing]
  | assign _ hcall | wait _ hcall | leave _ hcall | join _ hcall => simp [hcall, CallPc.closing]

lemma Works.task (hw : Works t w outcome pc t') (htask : t'.task = some j) :
    ∃ i, t.task = some i ∧ j.task.kill = i.task.kill := by
  cases hw with
  | enter job task | iterated job _ task => exact ⟨job, task, by rw [← Option.some.inj htask]⟩
  | take => simp at htask
  | _ => exact ⟨j, htask, rfl⟩

lemma Works.interrupts (hw : Works t w outcome pc t') : t'.interrupts = t.interrupts ∧ t'.interrupt = t.interrupt := by
  cases hw <;> exact ⟨rfl, rfl⟩

lemma step_kill (hset : ∀ task, a ≠ .setTaskAndRun task) (hs : t.step a = some t') (htask : t'.task = some j) :
    ∃ i, t.task = some i ∧ (j.task.kill = true ↔ i.task.kill = true ∨ Kills (t, a)) := by
  cases step_acts hs with
  | set task => exact absurd rfl (hset task)
  | shutdown | wake | reach | skip | store => exact ⟨j, htask, by simp [Kills]⟩
  | proceed hs =>
    rcases (proceed_frame hs).2.2.2.1 with ⟨hsame, hcall⟩ | ⟨hkill, hcall⟩
    · exact ⟨j, hsame ▸ htask, by simp [Kills, hcall]⟩
    · obtain ⟨i, hi, rfl⟩ := Option.map_eq_some_iff.mp (hkill ▸ htask)
      exact ⟨i, hi, by simp [Task.killed, Kills, hi, hcall]⟩
  | work w outcome pc hpc hw =>
    obtain ⟨i, hi, hj⟩ := hw.task htask
    exact ⟨i, hi, by simp [hj, Kills]⟩
  | kill b i hreached hi =>
    obtain rfl := Option.some.inj htask
    exact ⟨i, hi, by simp [Task.killed, Kills, hi, hreached]⟩
  | crash b _ hnone => exact absurd (hnone.symm.trans htask) (by simp)

lemma step_store (hs : t.step a = some t') : t'.interrupt = (store (t, a)).getD t.interrupt := by
  cases step_acts hs with
  | proceed hs =>
    rcases (proceed_frame hs).2.2.2.2.1 with ⟨hsame, hcall⟩ | ⟨hset, hcall⟩
    · simp [store, hcall, hsame]
    · simp [store, hcall, hset]
  | work w outcome pc hpc hw => exact hw.interrupts.2
  | store n b hb => simp [store, hb]
  | _ => rfl

lemma raised_append {b : Bool} (hb : b = true → t.Raised) (hraised : t.interrupt = true ∨ (none : Option Bool) = some true ∨
    true ∈ t.interrupts ++ [b] ∨ t.call.closing = true) : t.Raised := by
  rcases hraised with hi | hr | hp | hc
  · exact .inl hi
  · simp at hr
  · rcases List.mem_append.mp hp with hp | hp
    · exact .inr (.inr (.inl hp))
    · exact hb (List.mem_singleton.mp hp).symm
  · exact .inr (.inr (.inr hc))

lemma step_raised (hs : t.step a = some t') (hraised : t'.Raised) :
    t.Raised ∨ a = .setInterrupt true ∨ a = .shutdown := by
  cases step_acts hs with
  | set task hidle => exact .inl (by simpa [Raised, CallPc.closing, hidle] using hraised)
  | shutdown => exact .inr (.inr rfl)
  | proceed hs =>
    obtain ⟨-, hpending, hreached, -, hinterrupt, hclosing⟩ := proceed_frame hs
    rcases hraised with hi | hr | hp | hc
    · rcases hinterrupt with ⟨hsame, -⟩ | ⟨-, hcall⟩
      · exact .inl (.inl (hsame ▸ hi))
      · exact .inl (.inr (.inr (.inr (by rw [hcall]; rfl))))
    · exact .inl (.inr (.inl (hreached ▸ hr)))
    · exact .inl (.inr (.inr (.inl (hpending ▸ hp))))
    · exact .inl (.inr (.inr (.inr (hclosing hc))))
  | wake w hcall => exact .inl (by simpa [Raised, CallPc.closing, hcall] using hraised)
  | work w outcome pc hpc hw =>
    obtain ⟨hpending, hinterrupt⟩ := hw.interrupts
    rcases hraised with hi | hr | hp | hc
    · exact .inl (.inl (hinterrupt ▸ hi))
    · exact .inl (.inr (.inl (hw.reached ▸ hr)))
    · exact .inl (.inr (.inr (.inl (hpending ▸ hp))))
    · rcases hw.frame.2.2.2 with hcall | ⟨-, hcall⟩
      · exact .inl (.inr (.inr (.inr (hcall ▸ hc))))
      · simp [hcall, CallPc.closing] at hc
  | reach b =>
    rcases hraised with hi | hr | hrest
    · exact .inl (.inl hi)
    · exact .inr (.inl (by rw [Option.some.inj hr]))
    · exact .inl (.inr (.inr hrest))
  | skip b hlock =>
    obtain ⟨-, hreached, -⟩ := locked_eq_false.mp hlock
    cases b with
    | true => exact .inr (.inl rfl)
    | false => exact .inl (raised_append (b := false) (by simp) (hreached ▸ hraised))
  | kill b job hreached => exact .inl (raised_append (fun hb => .inr (.inl (hb ▸ hreached))) hraised)
  | crash b hreached => exact .inl (raised_append (fun hb => .inr (.inl (hb ▸ hreached))) hraised)
  | store n b hb =>
    rcases hraised with hi | hr | hp | hc
    · have hi : b = true := hi
      exact .inl (.inr (.inr (.inl (hi ▸ List.mem_of_getElem? hb))))
    · exact .inl (.inr (.inl hr))
    · exact .inl (.inr (.inr (.inl (List.mem_of_mem_eraseIdx hp))))
    · exact .inl (.inr (.inr (.inr hc)))

lemma run_kill (hg : Gives t₀ job t₁) (run : (system.since t₁).Run h t) (halone : Alone h)
    (htask : t.task = some j) : j.task.kill = true ↔ job.task.kill = true ∨ ∃ e ∈ h, Kills e := by
  induction run generalizing j with
  | start =>
    rw [show (system.since t₁).start = t₁ from rfl, hg.eq] at htask
    simp [← Option.some.inj htask]
  | @step h u v a run hs ih =>
    obtain ⟨i, hi, hj⟩ := step_kill (halone (u, a) (by simp)) hs htask
    rw [hj, ih (fun e he => halone e (List.mem_append_left _ he)) hi]
    simp [or_and_right, exists_or, or_assoc]

lemma run_store (run : (system.since t₁).Run h t) : t.interrupt = (stores h).getLast?.getD t₁.interrupt := by
  induction run with
  | start => rfl
  | @step h u v a run hs ih =>
    rw [step_store hs, ih]
    cases he : store (u, a) <;> simp [stores, he]

lemma run_raised (run : (system.since t₁).Run h t) (hraised : t.Raised) :
    t₁.Raised ∨ ∃ e ∈ h, e.2 = .setInterrupt true ∨ e.2 = .shutdown := by
  induction run with
  | start => exact .inl hraised
  | @step h u v a run hs ih =>
    rcases step_raised hs hraised with hr | ha
    · rcases ih hr with hr | hex
      · exact .inl hr
      · exact .inr (exists_append hex _)
    · exact .inr (exists_last ha)

lemma Gives.unreached {t₀ t₁ : TaskThread σ π} (hg : Gives t₀ job t₁) : t₀.reached = none ∧ t₁.reached = none := by
  cases step_acts hg.step with
  | set task hidle hlock => exact ⟨(locked_eq_false.mp hlock).2.1, (locked_eq_false.mp hlock).2.1⟩

lemma run_reached {b : Bool} (run : (system.since t₁).Run h t) (hnone : t₁.reached = none)
    (hreached : t.reached = some b) : ∃ e ∈ h, e.2 = .setInterrupt b ∧ e.1.task.isSome := by
  induction run with
  | start => exact absurd (hnone.symm.trans hreached) (by simp)
  | @step h u v a run hs ih =>
    by_cases ha : u.reached = some b
    · exact exists_append (ih ha) _
    have hacts : u.Acts a v := step_acts hs
    cases hacts with
    | proceed hs => exact absurd ((proceed_frame hs).2.2.1 ▸ hreached) ha
    | work w outcome pc hpc hw => exact absurd (hw.reached ▸ hreached) ha
    | reach c hlock htask => exact exists_last ⟨by rw [Option.some.inj hreached], htask⟩
    | kill | crash => simp at hreached
    | _ => exact absurd hreached ha

/-- The worker that still needs the locals of the call is the one that the call waits for. -/
def Attached (t : TaskThread σ π) : Prop :=
  ∀ w pc, t.workers[w]? = some pc → pc.detached = false →
    t.call = .spawned w ∨ t.call = .assigned w ∨ t.call = .waiting w

lemma Attached.frame (hatt : t.Attached) (hpc : t.workers[w]? = some pc) (hdet : pc.detached = false) :
    t.call.frame = some w := by
  rcases hatt w pc hpc hdet with hcall | hcall | hcall <;> rw [hcall] <;> rfl

lemma Attached.keep (hatt : t.Attached) (hworkers : t'.workers = t.workers)
    (hcall : ∀ w, t.call = .spawned w ∨ t.call = .assigned w ∨ t.call = .waiting w →
      t'.call = .spawned w ∨ t'.call = .assigned w ∨ t'.call = .waiting w) : t'.Attached :=
  fun w pc hpc hdet => hcall w (hatt w pc (hworkers ▸ hpc) hdet)

/-- A call that saw `task_` to be set and holds `task_lock_` still finds it set. -/
def Reaches (t : TaskThread σ π) : Prop := t.reached.isSome ∨ t.call = .reaching → t.task.isSome

/-- The step does not move `task_` out between the look of `set_interrupt` or `shutdown` at it and `kill`. -/
def KeepsTask (t : TaskThread σ π) (a : Action σ π) : Prop :=
  ∀ w outcome allRan, a = .work w outcome → t.workers[w]? = some (.iterated allRan) → t.Undisturbed

lemma Reaches.keep (h : t.Reaches) (htask : t'.task = t.task) (hreached : t'.reached = t.reached)
    (hcall : t'.call = .reaching → t.call = .reaching) : t'.Reaches := by
  intro hor
  rw [htask]
  rw [hreached] at hor
  exact h (hor.imp id hcall)

lemma Reaches.proceed (h : t.Reaches) (hs : t.proceed = some t') : t'.Reaches := by
  cases proceed_cases hs with
  | look hcall =>
    by_cases htask : t.task.isSome
    · exact fun _ => htask
    · exact h.keep rfl rfl (by simp [htask])
  | kill job => exact fun _ => rfl
  | crash hcall htask => exact absurd (h (.inr hcall)) (by simp [htask])
  | terminate => exact h.keep rfl rfl id
  | _ => exact h.keep rfl rfl (by simp)

lemma Works.reaches (hw : Works t w outcome pc t') (h : t.Reaches) (hpc : t.workers[w]? = some pc)
    (hkeeps : t.KeepsTask (.work w outcome)) : t'.Reaches := by
  cases hw with
  | notify => exact h.keep rfl rfl (by simp)
  | enter | iterated => exact fun _ => rfl
  | take allRan =>
    obtain ⟨hreached, hcall⟩ := hkeeps w outcome allRan rfl hpc
    rintro (hr | hc)
    · exact absurd hreached (Option.isSome_iff_ne_none.mp hr)
    · exact absurd hc hcall
  | _ => exact h.keep rfl rfl id

lemma Reaches.step (h : t.Reaches) (hset : ∀ task, a ≠ .setTaskAndRun task) (hkeeps : t.KeepsTask a)
    (hs : t.step a = some t') : t'.Reaches := by
  cases step_acts hs with
  | set task => exact absurd rfl (hset task)
  | shutdown | wake => exact h.keep rfl rfl (by simp)
  | proceed hs => exact h.proceed hs
  | work w outcome pc hpc hw => exact hw.reaches h hpc hkeeps
  | reach b hlock htask => exact fun _ => htask
  | kill => exact fun _ => rfl
  | crash b hreached htask => exact absurd (h (.inl (by simp [hreached]))) (by simp [htask])
  | skip | store => exact h.keep rfl rfl id

lemma Attached.proceed (hatt : t.Attached) (hshape : t.Shape) (huses : t.uses ≤ 1) (hf : t.fault = none)
    (hreaches : t.Reaches) (hs : t.proceed = some t') : t'.fault = none ∧ t'.Attached := by
  cases proceed_cases hs with
  | spawn hcall =>
    refine ⟨hf, fun w pc hpc hdet => ?_⟩
    rcases append_cases hpc with hpc | ⟨rfl, -⟩
    · have hold := hatt w pc hpc hdet
      simp [hcall] at hold
    · exact .inl rfl
  | terminate v hcall hthread =>
    cases hshape with
    | quiet uses calm task thread call => simp [thread] at hthread
    | stored uses calm thread call => simp [thread] at hthread
    | single uses ws pc workers old fits call frame thread =>
      obtain rfl := frame v (by rw [hcall]; rfl)
      simp [thread, hcall] at hthread
    | doomed uses => omega
  | crash hcall htask => exact absurd (hreaches (.inr hcall)) (by simp [htask])
  | stop hcall | spare hcall | look hcall | interrupt hcall | unused hcall =>
    exact ⟨hf, hatt.keep rfl (by simp [hcall])⟩
  | kill job hcall => exact ⟨hf, hatt.keep rfl (by simp [hcall])⟩
  | assign _ hcall | wait _ hcall | leave _ hcall | join _ hcall => exact ⟨hf, hatt.keep rfl (by simp [hcall])⟩

lemma Works.attached (hw : Works t w outcome pc t') (hpc : t.workers[w]? = some pc) (hatt : t.Attached) :
    t'.Attached := by
  have hset : ∀ pc', (pc'.detached = false → t.call = .spawned w ∨ t.call = .assigned w ∨ t.call = .waiting w) →
      ∀ u : TaskThread σ π, u.workers = t.workers.set w pc' → u.call = t.call → u.Attached := by
    intro pc' hpc' u hworkers hcall v p hp hdet
    rw [hcall]
    by_cases hv : v = w
    · subst hv
      rw [hworkers, List.getElem?_set_self (List.getElem?_eq_some_iff.mp hpc).1] at hp
      obtain rfl := Option.some.inj hp
      exact hpc' hdet
    · rw [hworkers, List.getElem?_set_ne (Ne.symm hv)] at hp
      exact hatt v p hp hdet
  cases hw with
  | start => exact hset _ (fun _ => hatt w _ hpc rfl) _ rfl rfl
  | notify call =>
    intro v p hp hdet
    by_cases hv : v = w
    · subst hv
      rw [goto_workers, List.getElem?_set_self (List.getElem?_eq_some_iff.mp hpc).1] at hp
      obtain rfl := Option.some.inj hp
      simp [WorkerPc.detached] at hdet
    · rw [goto_workers, List.getElem?_set_ne (Ne.symm hv)] at hp
      have hold := hatt v p hp hdet
      simp [call, Ne.symm hv] at hold
  | dangling | gone | stale | null => exact hatt
  | _ => exact hset _ (fun hdet => by simp [WorkerPc.detached] at hdet) _ rfl rfl

lemma Attached.step (hatt : t.Attached) (hreaches : t.Reaches) (hr : system.Reachable t) (huses : t.uses ≤ 1)
    (hset : ∀ task, a ≠ .setTaskAndRun task) (hwake : a ≠ .wake) (hs : t.step a = some t') :
    t'.fault = none ∧ t'.Attached := by
  have hf := step_fault hs
  have hshape := (sound hr).shape hf
  cases step_acts hs with
  | set task => exact absurd rfl (hset task)
  | shutdown hidle => exact ⟨hf, hatt.keep rfl (by simp [hidle])⟩
  | proceed hs => exact hatt.proceed hshape huses hf hreaches hs
  | wake => exact absurd rfl hwake
  | work w outcome pc hpc hw =>
    obtain ⟨-, hfits, -⟩ := hshape.live huses hpc hw.not_finished
    exact ⟨(hw.fault_eq hfits (hatt.frame hpc)).trans hf, hw.attached hpc hatt⟩
  | crash b hreached htask => exact absurd (hreaches (.inl (by simp [hreached]))) (by simp [htask])
  | reach | skip | kill | store => exact ⟨hf, hatt.keep rfl fun _ => id⟩

lemma attached (hg : Gives t₀ job t₁) (run : (system.since t₁).Run h t) (halone : Alone h)
    (hwake : ∀ e ∈ h, e.2 ≠ .wake) (hkeeps : ∀ e ∈ h, e.1.KeepsTask e.2) :
    t.fault = none ∧ t.Attached ∧ t.Reaches := by
  induction run with
  | start =>
    have hf := step_fault hg.step
    rw [show (system.since t₁).start = t₁ from rfl]
    refine ⟨by rw [hg.eq]; exact hf, ?_, fun hor => by simp [hg.eq]⟩
    rw [hg.eq]
    intro w pc hpc hdet
    cases (sound hg.reachable).shape hf with
    | quiet uses calm =>
      obtain rfl := calm.workers pc (List.mem_of_getElem? hpc)
      simp [WorkerPc.detached] at hdet
    | stored uses | single uses | doomed uses => simp [hg.joined] at uses
  | @step h u v a run hs ih =>
    have halone' : Alone h := fun e he => halone e (List.mem_append_left _ he)
    obtain ⟨-, hatt, hreaches⟩ := ih halone' (fun e he => hwake e (List.mem_append_left _ he))
      fun e he => hkeeps e (List.mem_append_left _ he)
    have hr : system.Reachable u := (reachable_step hg.reachable hg.step).since ⟨h, run⟩
    obtain ⟨hf, hatt'⟩ := hatt.step hreaches hr (serves hg run halone').1 (halone (u, a) (by simp))
      (hwake (u, a) (by simp)) hs
    exact ⟨hf, hatt', hreaches.step (halone (u, a) (by simp)) (hkeeps (u, a) (by simp)) hs⟩

def Action.Goes (a : Action σ π) : Prop := a.IsWork ∨ a = .proceed ∨ a = .kill

/-- Whoever holds `task_lock_` to kill the task gives it back. -/
lemma leads_undisturbed (hf : t.fault = none) (hreaches : t.Reaches) :
    ∃ t', system.Leads (fun a => a = .proceed ∨ a = .kill) t t' ∧ t'.Undisturbed := by
  have hcall : ∀ u : TaskThread σ π, u.fault = none → u.reached = none → (u.call = .reaching → u.task.isSome) →
      ∃ t', system.Leads (fun a => a = .proceed ∨ a = .kill) u t' ∧ t'.Undisturbed := by
    intro u hu hreached htask
    by_cases hc : u.call = .reaching
    · obtain ⟨j, hj⟩ := Option.isSome_iff_exists.mp (htask hc)
      have hs : system.step u .proceed = some { u with
          task := some { j with task := j.task.killed }, call := .interrupting } := by
        simp [system, TaskThread.step, hu, TaskThread.proceed, hc, killTask_of_some hj]
      exact ⟨_, .head (.inl rfl) hs (.refl _), hreached, by simp⟩
    · exact ⟨u, .refl u, hreached, hc⟩
  cases hreached : t.reached with
  | none => exact hcall t hf hreached fun hc => hreaches (.inr hc)
  | some b =>
    obtain ⟨j, hj⟩ := Option.isSome_iff_exists.mp (hreaches (.inl (by simp [hreached])))
    have hs : system.step t .kill = some { t with
        task := some { j with task := j.task.killed }, reached := none, interrupts := t.interrupts ++ [b] } := by
      simp [system, TaskThread.step, hf, hreached, killTask_of_some hj]
    obtain ⟨t', hl, hfree⟩ := hcall { t with
      task := some { j with task := j.task.killed }, reached := none, interrupts := t.interrupts ++ [b] } hf rfl
      fun _ => rfl
    exact ⟨t', .head (.inr rfl) hs hl, hfree⟩

/-- Once the worker exists it finishes, and then the task is completed. -/
lemma leads_complete_created (hg : Gives t₀ job t₁) (run : (system.since t₁).Run h t) (halone : Alone h)
    (hwake : ∀ e ∈ h, e.2 ≠ .wake) (hkeeps : ∀ e ∈ h, e.1.KeepsTask e.2) (hstored : t.call ≠ .stored)
    (hfree : t.Undisturbed) : ∃ t', system.Leads Action.Goes t t' ∧ t'.fault = none ∧
      ∃ status, t'.completions = t₀.completions ++ [⟨job.ticket, status, job.task.complete status⟩] := by
  obtain ⟨hf, hatt, -⟩ := attached hg run halone hwake hkeeps
  obtain ⟨huses, hserves⟩ := serves hg run halone
  have hr : system.Reachable t := (reachable_step hg.reachable hg.step).since ⟨h, run⟩
  rcases hserves hf with ⟨hcall, -⟩ | ⟨-, w, pc, hlast, hpc, -⟩
  · exact absurd hcall hstored
  · obtain ⟨t', hl, hf', hcalm, -⟩ := leads_calm hr hf huses hpc hlast (hatt.frame hpc) hfree
    obtain ⟨h', run', hwork⟩ := hl.run
    have halone' : Alone (h ++ h') := by
      intro e he task
      rcases List.mem_append.mp he with he | he
      · exact halone e he task
      · obtain ⟨w, outcome, ha⟩ := hwork e he
        simp [ha]
    have hstored' : t'.call ≠ .stored := by
      refine hl.invariant (I := fun t => t.call ≠ .stored) ?_ hr hstored
      rintro t a t' - ⟨w, outcome, rfl⟩ hcall hs
      rcases (step_inside (a := .work w outcome) rfl hs).call with hsame | ⟨v, -, hwoken⟩
      · exact hsame ▸ hcall
      · simp [hwoken]
    have run'' : (system.since t₁).Run (h ++ h') t' := run.append run'
    rcases (serves hg run'' halone').2 hf' with ⟨hcall, -⟩ | ⟨-, v, pc', -, hpc', ht⟩
    · exact absurd hcall hstored'
    · obtain rfl := hcalm.workers pc' (List.mem_of_getElem? hpc')
      obtain ⟨status, hdone, -⟩ := ht
      exact ⟨t', hl.mono (fun a ha => .inl ha), hf', status, hdone⟩

/-- More steps that neither give a task, nor wake, nor work. -/
lemma append_alone {h' : List (TaskThread σ π × Action σ π)} (halone : Alone h) (hwake : ∀ e ∈ h, e.2 ≠ .wake)
    (hkeeps : ∀ e ∈ h, e.1.KeepsTask e.2) (hmore : ∀ e ∈ h', e.2 = .proceed ∨ e.2 = .kill) :
    Alone (h ++ h') ∧ (∀ e ∈ h ++ h', e.2 ≠ .wake) ∧ ∀ e ∈ h ++ h', e.1.KeepsTask e.2 := by
  simp only [Alone, List.mem_append, or_imp, forall_and]
  refine ⟨⟨halone, fun e he task => ?_⟩, ⟨hwake, fun e he => ?_⟩, hkeeps, fun e he w outcome allRan ha => ?_⟩
  all_goals rcases hmore e he with hact | hact <;> simp_all

lemma leads_complete (hg : Gives t₀ job t₁) (run : (system.since t₁).Run h t) (halone : Alone h)
    (hwake : ∀ e ∈ h, e.2 ≠ .wake) (hkeeps : ∀ e ∈ h, e.1.KeepsTask e.2) :
    ∃ t', system.Leads Action.Goes t t' ∧ t'.fault = none ∧
      ∃ status, t'.completions = t₀.completions ++ [⟨job.ticket, status, job.task.complete status⟩] := by
  obtain ⟨hf, -, hreaches⟩ := attached hg run halone hwake hkeeps
  obtain ⟨u, hl, hfree⟩ := leads_undisturbed hf hreaches
  obtain ⟨h', run', hmore⟩ := hl.run
  have run₁ := run.append run'
  obtain ⟨halone₁, hwake₁, hkeeps₁⟩ := append_alone halone hwake hkeeps hmore
  have hgoes : system.Leads Action.Goes t u := hl.mono fun a ha => .inr ha
  by_cases hstored : u.call = .stored
  · have hfu := (attached hg run₁ halone₁ hwake₁ hkeeps₁).1
    have hs : system.step u .proceed = some { u with
        workers := u.workers ++ [.created], call := .spawned u.workers.length } := by
      simp [system, TaskThread.step, hfu, TaskThread.proceed, hstored]
    have hproceed : ∀ e ∈ [(u, (.proceed : Action σ π))], e.2 = .proceed ∨ e.2 = .kill := by simp
    obtain ⟨halone₂, hwake₂, hkeeps₂⟩ := append_alone halone₁ hwake₁ hkeeps₁ hproceed
    have run₂ : (system.since t₁).Run (h ++ h' ++ [(u, .proceed)]) { u with
        workers := u.workers ++ [.created], call := .spawned u.workers.length } := .step run₁ hs
    obtain ⟨t', hl', hdone⟩ := leads_complete_created hg run₂ halone₂ hwake₂ hkeeps₂ (by simp) ⟨hfree.1, by simp⟩
    exact ⟨t', hgoes.trans (.head (.inr (.inl rfl)) hs hl'), hdone⟩
  · obtain ⟨t', hl', hdone⟩ := leads_complete_created hg run₁ halone₁ hwake₁ hkeeps₁ hstored hfree
    exact ⟨t', hgoes.trans hl', hdone⟩

/-- Taken from under the call, the task is a null pointer when `kill` is called on it. -/
lemma not_keepsTask (hs : t.step a = some t') (hnot : ¬ t.KeepsTask a) :
    ∃ b u, (b = .kill ∨ b = .proceed) ∧ t'.step b = some u ∧ u.fault = some .undefined := by
  simp only [KeepsTask, not_forall] at hnot
  obtain ⟨w, outcome, allRan, rfl, hpc, hnot⟩ := hnot
  have hf := step_fault hs
  obtain rfl : { t.goto w (.holding t.task allRan) with task := none } = t' := by
    simpa [TaskThread.step, hf, TaskThread.work, hpc] using hs
  rcases not_and_or.mp hnot with hreached | hcall
  · obtain ⟨b, hb⟩ := Option.ne_none_iff_exists'.mp hreached
    exact ⟨.kill, { TaskThread.fail { t.goto w (.holding t.task allRan) with task := none } .undefined with
      reached := none, interrupts := t.interrupts ++ [b] }, .inl rfl,
      by simp [TaskThread.step, goto, hf, hb, killTask, fail], rfl⟩
  · have hc : t.call = .reaching := not_not.mp hcall
    exact ⟨.proceed, { TaskThread.fail { t.goto w (.holding t.task allRan) with task := none } .undefined with
      call := .interrupting }, .inr rfl,
      by simp [TaskThread.step, goto, hf, TaskThread.proceed, hc, killTask, fail], rfl⟩

/-- Every stage was called, in order, all went well, and no interrupt came before the checks that follow
the last stage. -/
def Clean (job : Job σ π) (h : List (TaskThread σ π × Action σ π)) : Prop :=
  stageCalls h = StageCall.through job.task.stages.length ∧ ∀ k, k + 1 = job.task.stages.length →
    (∃ h₁ e h₂, h = h₁ ++ e :: h₂ ∧ ReadsInterrupt k false e ∧
      (stores h₁ = [] ∨ (stores h₁).getLast? = some false)) ∧
    ∃ h₁ e h₂, h = h₁ ++ e :: h₂ ∧ ReadsKill k false e ∧ ∀ e' ∈ h₁, ¬ Kills e'

lemma Result.clean (hres : Result job h true) (hg : Gives t₀ job t₁) (run : (system.since t₁).Run h t)
    (halone : Alone h) : Clean job h := by
  obtain ⟨hcalls, hchecks⟩ := hres
  refine ⟨hcalls, fun k hk => ⟨?_, ?_⟩⟩
  · obtain ⟨e, he, hread⟩ := (hchecks k hk).1
    obtain ⟨h₁, h₂, hsplit, hrun⟩ := run.split he
    refine ⟨h₁, e, h₂, hsplit, hread, ?_⟩
    obtain ⟨w, outcome, ticket, -, -, hi⟩ := hread
    have hstore := run_store hrun
    cases hlast : (stores h₁).getLast? with
    | none => exact .inl (List.getLast?_eq_none_iff.mp hlast)
    | some b => exact .inr (by simp [← hi, hstore, hlast])
  · obtain ⟨e, he, hread⟩ := (hchecks k hk).2
    obtain ⟨h₁, h₂, hsplit, hrun⟩ := run.split he
    refine ⟨h₁, e, h₂, hsplit, hread, fun e' he' hkills => ?_⟩
    obtain ⟨w, ticket, -, -, htask⟩ := hread
    obtain ⟨i, hi, hkill⟩ := Option.map_eq_some_iff.mp htask
    have halone₁ : Alone h₁ := fun e he => halone e (hsplit ▸ List.mem_append_left _ he)
    have hset := (run_kill hg hrun halone₁ hi).mpr (.inr ⟨e', he', hkills⟩)
    simp [hkill] at hset

lemma Told.completions (ht : Told job c₀ h t pc) (hpc : pc ≠ .finished) : t.completions = c₀ := by
  cases pc with
  | iterating ticket pc => exact ht.2.2.1
  | finished => exact absurd rfl hpc
  | _ => exact ht.2.1

lemma step_completions (hs : t.step a = some t') (hne : t'.completions ≠ t.completions) :
    ∃ (w : ℕ) (tmp : Option (Job σ π)) (allRan : Bool), t.workers[w]? = some (.stopped tmp allRan) := by
  cases step_acts hs with
  | proceed hs => exact absurd (proceed_frame hs).1 hne
  | work w outcome pc hpc hw =>
    cases hw with
    | complete job allRan => exact ⟨w, some job, allRan, hpc⟩
    | _ => exact absurd rfl hne
  | _ => exact absurd rfl hne

end TaskThread

/-- What becomes of a task given to a thread whose earlier workers were joined, unless its worker moves it
out while `set_interrupt` is about to kill it, which is undefined: it is completed once, when `running_` and
`task_` are cleared, and with `true` only if nothing went wrong and nobody interrupted it in time. -/
theorem completion_protocol {t t₀ t₁ : TaskThread σ π} {job : Job σ π}
    {h : List (TaskThread σ π × TaskThread.Action σ π)} (hg : TaskThread.Gives t₀ job t₁)
    (run : (TaskThread.system.since t₁).Run h t) (halone : TaskThread.Alone h) :
    ((∀ e ∈ h, e.2 ≠ .wake) → (∀ e ∈ h, e.1.KeepsTask e.2) → t.fault = none ∧
      ∃ t', TaskThread.system.Leads TaskThread.Action.Goes t t' ∧ t'.fault = none ∧
        ∃ status, t'.completions = t₀.completions ++ [⟨job.ticket, status, job.task.complete status⟩]) ∧
    (t.fault = none →
      (t.completions = t₀.completions ∨
        ∃ status, t.completions = t₀.completions ++ [⟨job.ticket, status, job.task.complete status⟩] ∧
          (status = true → TaskThread.Clean job h)) ∧
      ∀ a t', t.step a = some t' → t'.completions ≠ t.completions → t.running = false ∧ t.task = none) ∧
    ∀ a t', t.step a = some t' → ¬ t.KeepsTask a →
      ∃ b u, (b = .kill ∨ b = .proceed) ∧ t'.step b = some u ∧ u.fault = some .undefined := by
  obtain ⟨huses, hserves⟩ := TaskThread.serves hg run halone
  refine ⟨fun hwake hkeeps => ?_, fun hf => ⟨?_, ?_⟩, fun a t' => TaskThread.not_keepsTask⟩
  · exact ⟨(TaskThread.attached hg run halone hwake hkeeps).1, TaskThread.leads_complete hg run halone hwake hkeeps⟩
  · rcases hserves hf with ⟨-, ht⟩ | ⟨-, w, pc, -, -, ht⟩
    · exact .inl (ht.completions (by simp))
    · by_cases hpc : pc = .finished
      · subst hpc
        obtain ⟨status, hdone, hres⟩ := ht
        refine .inr ⟨status, hdone, ?_⟩
        rintro rfl
        exact hres.clean hg run halone
      · exact .inl (ht.completions hpc)
  · intro a t' hs hne
    obtain ⟨w, tmp, allRan, hpc⟩ := TaskThread.step_completions hs hne
    have hr : TaskThread.system.Reachable t :=
      (TaskThread.reachable_step hg.reachable hg.step).since ⟨h, run⟩
    obtain ⟨-, hfits, -⟩ := ((TaskThread.sound hr).shape hf).live huses hpc (by simp)
    exact ⟨hfits.2.2.1, hfits.1⟩

/-- An interrupt concerns the task it was raised against, as long as none is left from before, the task
comes with its flags clear, and `set_interrupt(false)` finds no task. -/
theorem interrupt_own_task {t t₀ t₁ : TaskThread σ π} {job : Job σ π} {c : Completion π}
    {h : List (TaskThread σ π × TaskThread.Action σ π)} (hg : TaskThread.Gives t₀ job t₁)
    (run : (TaskThread.system.since t₁).Run h t) (halone : TaskThread.Alone h) (hf : t.fault = none)
    (hinterrupt : t₀.interrupt = false) (hpending : true ∉ t₀.interrupts) (hkill : job.task.kill = false)
    (hiterating : job.task.iterating = false)
    (hfalse : ∀ e ∈ h, e.2 = .setInterrupt false → e.1.task = none)
    (hdone : t.completions = t₀.completions ++ [c]) (hstatus : c.status = false)
    (hok : ∀ call ∈ TaskThread.stageCalls h, call.ok = true) :
    ∃ e ∈ h, e.2 = .setInterrupt true ∨ e.2 = .shutdown := by
  have hlast : ∀ {x}, TaskThread.Told job t₀.completions h t x → x = .finished := by
    intro x ht
    by_contra hx
    simp [ht.completions hx] at hdone
  have hfailed : TaskThread.Failed job h := by
    rcases (TaskThread.serves hg run halone).2 hf with ⟨-, ht⟩ | ⟨-, w, pc, -, -, ht⟩
    · exact absurd (hlast ht) (by simp)
    · obtain rfl := hlast ht
      obtain ⟨status, hc, hres⟩ := ht
      rw [hdone, List.append_cancel_left_eq, List.singleton_inj] at hc
      subst hc
      obtain rfl : status = false := hstatus
      exact hres
  have hraised : ∀ h₁ u h₂ a, h = h₁ ++ (u, a) :: h₂ → (TaskThread.system.since t₁).Run h₁ u → u.Raised →
      ∃ e ∈ h, e.2 = .setInterrupt true ∨ e.2 = .shutdown := by
    rintro h₁ u h₂ a rfl hrun hu
    rcases TaskThread.run_raised hrun hu with hr | ⟨e, he, hcause⟩
    · simp [hg.eq, TaskThread.Raised, hinterrupt, hpending, hg.unreached.1, CallPc.closing] at hr
    · exact ⟨e, List.mem_append_left _ he, hcause⟩
  rcases hfailed with ⟨call, hmem, hbad⟩ | hit | ⟨k, e, he, hread⟩ | ⟨k, e, he, hread⟩
  · simp [hok call hmem] at hbad
  · simp [hiterating] at hit
  · obtain ⟨h₁, h₂, hsplit, hrun⟩ := run.split he
    obtain ⟨w, outcome, ticket, -, -, hi⟩ := hread
    exact hraised h₁ e.1 h₂ e.2 hsplit hrun (.inl hi)
  · obtain ⟨h₁, h₂, hsplit, hrun⟩ := run.split he
    obtain ⟨w, ticket, -, -, htask⟩ := hread
    obtain ⟨i, hi, hik⟩ := Option.map_eq_some_iff.mp htask
    have halone₁ : TaskThread.Alone h₁ := fun e he => halone e (hsplit ▸ List.mem_append_left _ he)
    rcases (TaskThread.run_kill hg hrun halone₁ hi).mp hik with hk | ⟨e', he', hkills⟩
    · simp [hkill] at hk
    · have hmem : e' ∈ h := hsplit ▸ List.mem_append_left _ he'
      obtain ⟨h₃, h₄, hsplit', hrun'⟩ := run.split hmem
      obtain ⟨-, ⟨-, hreached⟩ | ⟨-, hcall⟩⟩ := hkills
      · obtain ⟨b, hb⟩ := Option.isSome_iff_exists.mp hreached
        obtain ⟨e₀, he₀, hset, hsome⟩ := TaskThread.run_reached hrun' hg.unreached.2 hb
        have hmem₀ : e₀ ∈ h := hsplit' ▸ List.mem_append_left _ he₀
        cases b with
        | true => exact ⟨e₀, hmem₀, .inl hset⟩
        | false => simp [hfalse e₀ hmem₀ hset] at hsome
      · exact hraised h₃ e'.1 h₄ e'.2 hsplit' hrun' (.inr (.inr (.inr (by rw [hcall]; rfl))))

/-! A task that nobody interrupts fails: because of an interrupt that came before it, and because of
`set_interrupt(false)`. -/

namespace Sample

def works (w n : ℕ) : List Caller := List.replicate n (.work w true)

def serve (w : ℕ) : List Caller := List.replicate 3 .proceed ++ works w 2 ++ [.proceed]

def stored : TaskThread Unit Unit := { TaskThread.init with
  task := some ⟨0, Graphs.Sample.task₁⟩
  call := .stored
  uses := 1 }

lemma gives_first : TaskThread.Gives TaskThread.init ⟨0, Graphs.Sample.task₁⟩ stored := ⟨.start, rfl, rfl⟩

def wholeTask : List Caller := serve 0 ++ works 0 12

def interrupted : List Caller := serve 0 ++ [.setInterrupt true, .kill, .storeInterrupt 0] ++ works 0 11

def interruptedFalse : List Caller := serve 0 ++ [.setInterrupt false, .kill, .storeInterrupt 0] ++ works 0 11

/-- The worker moves `task_` out between the two looks of `set_interrupt` at it. -/
def crossed : List Caller := serve 0 ++ works 0 9 ++ [.setInterrupt true] ++ works 0 1 ++ [.kill]

def leftOver : List Caller := firstTask ++ [.setInterrupt true, .storeInterrupt 0, .shutdown, .proceed, .proceed]

lemma alone_trace {s : TaskThread Unit Unit} {as : List Caller} (h : ∀ a ∈ as, ∀ task, a ≠ .setTaskAndRun task) :
    TaskThread.Alone (TaskThread.system.trace s as) := by
  intro e he task
  exact h e.2 (System.trace_mem he) task

end Sample

lemma Sample.keepsTask {s : TaskThread Unit Unit} {as : List Caller}
    (h : (TaskThread.system.trace s as).all (fun e => e.1.reached = none ∧ e.1.call ≠ .reaching) = true) :
    ∀ e ∈ TaskThread.system.trace s as, e.1.KeepsTask e.2 := by
  intro e he
  have hfree : e.1.reached = none ∧ e.1.call ≠ .reaching := of_decide_eq_true (List.all_eq_true.mp h e he)
  exact fun _ _ _ _ _ => hfree

theorem completion_protocol_sample :
    ∃ t, TaskThread.system.exec Sample.stored Sample.wholeTask = some t ∧ t.fault = none ∧
      t.completions.map Completion.status = [true] ∧
      TaskThread.Clean ⟨0, Graphs.Sample.task₁⟩ (TaskThread.system.trace Sample.stored Sample.wholeTask) := by
  have hany : (TaskThread.system.exec Sample.stored Sample.wholeTask).any (fun t =>
      t.completions.map Completion.status = [true]) = true := by decide +kernel
  obtain ⟨t, ht, hp⟩ := System.exec_any hany
  have hstatus := of_decide_eq_true hp
  obtain ⟨hgoes, hresult, -⟩ := completion_protocol Sample.gives_first (System.exec_trace ht) (Sample.alone_trace
    (by simp [Sample.wholeTask, Sample.serve, Sample.works, or_imp, forall_and]))
  have hf := (hgoes (fun e he hwake => by
    have hlabel := System.trace_mem he
    rw [hwake] at hlabel
    simp [Sample.wholeTask, Sample.serve, Sample.works] at hlabel) (Sample.keepsTask (by decide +kernel))).1
  refine ⟨t, ht, hf, hstatus, ?_⟩
  rcases (hresult hf).1 with hnone | ⟨status, hdone, hclean⟩
  · simp [hnone, TaskThread.init] at hstatus
  · apply hclean
    simpa [hdone, TaskThread.init] using hstatus

/-- The task is never completed: `kill` is called on a null pointer. -/
theorem completion_protocol_fails :
    TaskThread.Gives TaskThread.init ⟨0, Graphs.Sample.task₁⟩ Sample.stored ∧
    (∀ a ∈ Sample.crossed, a = .proceed ∨ (∃ outcome, a = .work 0 outcome) ∨ a = .setInterrupt true ∨ a = .kill) ∧
    ∃ t, TaskThread.system.exec Sample.stored Sample.crossed = some t ∧ t.fault = some .undefined ∧
      t.completions.map Completion.status = [] ∧ ∀ a, t.step a = none := by
  have hany : (TaskThread.system.exec Sample.stored Sample.crossed).any (fun t =>
      t.fault = some .undefined ∧ t.completions.map Completion.status = []) = true := by decide +kernel
  obtain ⟨t, ht, hp⟩ := System.exec_any hany
  obtain ⟨hf, hstatus⟩ := of_decide_eq_true hp
  refine ⟨Sample.gives_first, ?_, t, ht, hf, hstatus, fun a => by simp [TaskThread.step, hf]⟩
  simp [Sample.crossed, Sample.serve, Sample.works, or_imp, forall_and]

theorem interrupt_own_task_sample :
    (∃ e ∈ TaskThread.system.trace Sample.stored Sample.interrupted,
      e.2 = .setInterrupt true ∨ e.2 = .shutdown) ∧ Graphs.Sample.task₁.stages.length = 1 := by
  have hany : (TaskThread.system.exec Sample.stored Sample.interrupted).any (fun t =>
      t.fault = none ∧ t.completions.map Completion.status = [false]) = true := by decide +kernel
  obtain ⟨t, ht, hp⟩ := System.exec_any hany
  obtain ⟨hf, hstatus⟩ := of_decide_eq_true hp
  obtain ⟨c, hc, hstatus⟩ := List.map_eq_singleton_iff.mp hstatus
  refine ⟨interrupt_own_task Sample.gives_first (System.exec_trace ht) (Sample.alone_trace ?_) hf rfl
    (by simp [TaskThread.init]) rfl rfl ?_ hc hstatus (by decide +kernel), rfl⟩
  · simp [Sample.interrupted, Sample.serve, Sample.works, or_imp, forall_and]
  · intro e he hfalse
    have hlabel := System.trace_mem he
    rw [hfalse] at hlabel
    simp [Sample.interrupted, Sample.serve, Sample.works] at hlabel

theorem interrupt_own_task_fails :
    (∃ t₀ t : TaskThread Unit Unit, TaskThread.system.exec TaskThread.init Sample.leftOver = some t₀ ∧ t₀.uses = 0 ∧
      TaskThread.system.exec t₀ (.setTaskAndRun (some ⟨1, Graphs.Sample.task₂⟩) :: Sample.serve 1 ++
        Sample.works 1 11) = some t ∧
      t.completions.map (fun c => (c.ticket, c.status)) = [(0, true), (1, false)] ∧
      ∀ call ∈ TaskThread.stageCalls (TaskThread.system.trace t₀ (.setTaskAndRun (some ⟨1, Graphs.Sample.task₂⟩) ::
        Sample.serve 1 ++ Sample.works 1 11)), call.ok = true) ∧
    ∃ t : TaskThread Unit Unit, TaskThread.system.exec Sample.stored Sample.interruptedFalse = some t ∧
      t.completions.map (fun c => (c.ticket, c.status)) = [(0, false)] ∧
      ∀ call ∈ TaskThread.stageCalls (TaskThread.system.trace Sample.stored Sample.interruptedFalse),
        call.ok = true := by
  constructor
  · have hany : (TaskThread.system.exec TaskThread.init Sample.leftOver).any (fun t₀ => t₀.uses = 0 ∧
        (∀ call ∈ TaskThread.stageCalls (TaskThread.system.trace t₀ (.setTaskAndRun (some ⟨1, Graphs.Sample.task₂⟩) ::
          Sample.serve 1 ++ Sample.works 1 11)), call.ok = true) ∧
        (TaskThread.system.exec t₀ (.setTaskAndRun (some ⟨1, Graphs.Sample.task₂⟩) :: Sample.serve 1 ++
          Sample.works 1 11)).any fun t =>
            t.completions.map (fun c => (c.ticket, c.status)) = [(0, true), (1, false)]) = true := by decide +kernel
    obtain ⟨t₀, ht₀, hp⟩ := System.exec_any hany
    obtain ⟨huses, hok, hany⟩ := of_decide_eq_true hp
    obtain ⟨t, ht, hp⟩ := System.exec_any hany
    exact ⟨t₀, t, ht₀, huses, ht, of_decide_eq_true hp, hok⟩
  · have hany : (TaskThread.system.exec Sample.stored Sample.interruptedFalse).any (fun t =>
        t.completions.map (fun c => (c.ticket, c.status)) = [(0, false)]) = true := by decide +kernel
    obtain ⟨t, ht, hp⟩ := System.exec_any hany
    exact ⟨t, ht, of_decide_eq_true hp, by decide +kernel⟩

end DagScheduler.Scheduling

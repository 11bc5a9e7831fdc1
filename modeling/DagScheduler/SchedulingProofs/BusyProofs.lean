import DagScheduler.SchedulingProofs.CompletionProofs

/-! When a thread that looks unused is: `running_` tells it between two steps of its worker, and not
around them. -/

namespace DagScheduler.Scheduling

open Graphs Library.Transitions

variable {σ π : Type}

def WorkerPc.early : WorkerPc σ π → Bool
  | .created | .started | .notified | .occupied => true
  | _ => false

def WorkerPc.late : WorkerPc σ π → Bool
  | .stopped _ _ => true
  | _ => false

namespace TaskThread

variable {t t' t₀ t₁ : TaskThread σ π} {w : ℕ} {outcome : Bool} {pc : WorkerPc σ π} {a : Action σ π}
  {job : Job σ π} {h : List (TaskThread σ π × Action σ π)}

lemma Shape.woken (hshape : t.Shape) (hcall : t.call = .woken w) : t.uses = 1 ∧ w + 1 = t.workers.length ∧
    ∃ ws pc, t.workers = ws ++ [pc] ∧ (∀ p ∈ ws, p = .finished) ∧ t.Fits pc := by
  cases hshape with
  | quiet uses calm task thread call => simp [hcall, CallPc.setting] at call
  | stored uses calm thread call => simp [hcall] at call
  | single uses ws pc workers old fits call frame =>
    obtain rfl := frame w (by rw [hcall]; rfl)
    exact ⟨uses, by simp [workers], ws, pc, workers, old, fits⟩
  | doomed uses thread call => simp [hcall] at call

lemma uses_since (run : (system.since t₁).Run h t) (halone : Alone h) : t.uses = t₁.uses ∨ t.uses = 0 := by
  induction run with
  | start => exact .inl rfl
  | @step h u v a run hs ih =>
    rcases step_uses hs with hu | hu | ⟨task, ha, -⟩
    · rw [hu]
      exact ih fun e he => halone e (List.mem_append_left _ he)
    · exact .inr hu
    · exact absurd ha (halone (u, a) (by simp) task)

lemma returns_iff (hr : system.Reachable t₀) (hset : t₀.step (.setTaskAndRun (some job)) = some t₁)
    (run : (system.since t₁).Run h t) (halone : Alone h) (hf : t.fault = none) (hcall : t.call = .woken w) :
    ∃ pc, t.workers[w]? = some pc ∧ ∀ t', t.step .proceed = some t' →
      ((t'.running = true ∨ ∃ c, t'.completions = t₀.completions ++ [c] ∧ c.ticket = job.ticket) ↔
        pc.early = false ∧ pc.late = false) := by
  have hr₁ := reachable_step hr hset
  have hrt : system.Reachable t := hr₁.since ⟨h, run⟩
  obtain ⟨huses, hlast, ws, pc, hworkers, -, hfits⟩ := ((sound hrt).shape hf).woken hcall
  have hg : Gives t₀ job t₁ := by
    refine ⟨hr, ?_, hset⟩
    have huses₁ := (setTaskAndRun_holds 0 hset).2.2.1
    rcases uses_since run halone with hu | hu <;> omega
  have hpc : t.workers[w]? = some pc := by
    obtain rfl : w = ws.length := by
      simp [hworkers] at hlast
      omega
    simp [hworkers]
  refine ⟨pc, hpc, fun t' hs => ?_⟩
  obtain rfl : { t with call := .idle } = t' := by
    simpa [TaskThread.step, hf, TaskThread.proceed, hcall] using hs
  have htold : Told job t₀.completions h t pc := by
    rcases (serves hg run halone).2 hf with ⟨hstored, -⟩ | ⟨-, v, pc', hv, hpc', ht⟩
    · simp [hcall] at hstored
    · obtain rfl : v = w := by omega
      obtain rfl := Option.some.inj (hpc.symm.trans hpc')
      exact ht
  by_cases hfin : pc = .finished
  · subst hfin
    obtain ⟨status, hdone, -⟩ := htold
    simp [WorkerPc.early, WorkerPc.late, hdone]
  · have hopen : ¬ ∃ c, t.completions = t₀.completions ++ [c] ∧ c.ticket = job.ticket := by
      rintro ⟨c, hc, -⟩
      simp [htold.completions hfin] at hc
    rw [or_iff_left hopen]
    cases pc with
    | created | started | notified => simp [WorkerPc.early, hfits.1]
    | occupied => simp [WorkerPc.early, hfits.2.1]
    | running | iterating | iterated => simp [WorkerPc.early, WorkerPc.late, hfits.2.1]
    | holding => simp [WorkerPc.early, WorkerPc.late, hfits.2.2.1]
    | stopped => simp [WorkerPc.early, WorkerPc.late, hfits.2.2.1]
    | finished => exact absurd rfl hfin

lemma Works.early (hw : Works t w outcome pc t') (hpc : pc.early = false) :
    t'.workers = t.workers ∨ ∃ pc', t'.workers = t.workers.set w pc' ∧ pc'.early = false := by
  cases hw with
  | dangling | gone | stale | null => exact .inl rfl
  | start | notify | unheard | occupied => simp [WorkerPc.early] at hpc
  | _ => exact .inr ⟨_, rfl, rfl⟩

lemma Shape.unused (hshape : t.Shape) (hidle : t.call = .idle) (hearly : ∀ pc ∈ t.workers, pc.early = false)
    (hrunning : t.running = false) : t.task = none ∧
      (t.uses = 0 ∨ ∀ pc ∈ t.workers, pc = .finished ∨ pc.late = true) := by
  cases hshape with
  | quiet uses calm task => exact ⟨task, .inl uses⟩
  | stored uses calm thread call => simp [hidle] at call
  | single uses ws pc workers old fits =>
    have hpc := hearly pc (by simp [workers])
    have hrest : ∀ p ∈ t.workers, p = .finished ∨ p = pc := by
      intro p hp
      rcases List.mem_append.mp (workers ▸ hp) with hp | hp
      · exact .inl (old p hp)
      · exact .inr (List.mem_singleton.mp hp)
    cases pc with
    | created | started | notified | occupied => simp [WorkerPc.early] at hpc
    | running | iterating | iterated => simp [fits.2.1] at hrunning
    | holding => simp [fits.2.2.1] at hrunning
    | stopped tmp allRan =>
      refine ⟨fits.1, .inr fun p hp => ?_⟩
      rcases hrest p hp with hp | hp
      · exact .inl hp
      · exact .inr (by rw [hp]; rfl)
    | finished =>
      refine ⟨fits.1, .inr fun p hp => ?_⟩
      rcases hrest p hp with hp | hp <;> exact .inl hp
  | doomed uses thread call => simp [hidle] at call

lemma internal_early (ha : a.internal = true) (hs : t.step a = some t') (hidle : t'.call = .idle)
    (hearly : t.call = .idle → ∀ pc ∈ t.workers, pc.early = false) : ∀ pc ∈ t'.workers, pc.early = false := by
  cases step_acts hs with
  | wake => simp at hidle
  | work w outcome pc hpc hw =>
    have hcall : t.call = .idle := by
      rcases hw.frame.2.2.2 with hcall | ⟨-, hcall⟩
      · exact hcall ▸ hidle
      · simp [hcall] at hidle
    rcases hw.early (hearly hcall pc (List.mem_of_getElem? hpc)) with hsame | ⟨pc', hset, hpc'⟩
    · exact hsame ▸ hearly hcall
    · intro p hp
      rcases List.mem_or_eq_of_mem_set (hset ▸ hp) with hp | rfl
      · exact hearly hcall p hp
      · exact hpc'
  | _ => simp [Action.internal] at ha

lemma proceed_returns (hsetting : t.call.setting = true) (hs : t.proceed = some t') (hidle : t'.call = .idle) :
    (∃ w, t.call = .woken w) ∧ t'.workers = t.workers := by
  cases proceed_cases hs with
  | leave w hcall => exact ⟨⟨w, hcall⟩, rfl⟩
  | terminate w hcall => simp [fail, hcall] at hidle
  | spawn | assign | wait => simp at hidle
  | stop hcall | spare hcall | look hcall | kill _ hcall | crash hcall | interrupt hcall | unused hcall | join _ hcall =>
    simp [hcall, CallPc.setting] at hsetting

end TaskThread

namespace TaskScheduler

variable {s s' : TaskScheduler σ π} {a : Action σ π} {i : ℕ} {l : Startup σ π} {k : Fin 10}

def gave (s : TaskScheduler σ π) (k : Fin 10) : List ℕ :=
  (s.dispatched.filter fun d => d.thread = k).map Dispatch.ticket

lemma gave_length (h : s.Given) (k : Fin 10) : (s.gave k).length = (s.threadPool k).uses := by
  rw [h.uses k, gave, List.length_map, ← List.countP_eq_length_filter, List.count, List.countP_map]
  rfl

lemma holds_moves {k : Fin 10} (ticket : ℕ) (hg : s.Guarded) (hv : s.Given) (hm : s.Moves a s')
    (h : (s.threadPool k).uses ≤ 1 → (s.threadPool k).holds ticket = (s.gave k).count ticket)
    (huses : (s'.threadPool k).uses ≤ 1) : (s'.threadPool k).holds ticket = (s'.gave k).count ticket := by
  have hkeep : ∀ (j : Fin 10) (t : TaskThread σ π), (s.threadPool j).Kept t →
      s'.threadPool = Function.update s.threadPool j t → s'.dispatched = s.dispatched →
      (s'.threadPool k).holds ticket = (s'.gave k).count ticket := by
    intro j t hkept hpool hdispatched
    rw [gave, hdispatched, ← gave]
    rw [hpool] at huses ⊢
    by_cases hkj : k = j
    · subst hkj
      rw [Function.update_self] at huses ⊢
      rw [hkept.holds]
      exact h (hkept.uses ▸ huses)
    · rw [Function.update_of_ne hkj] at huses ⊢
      exact h huses
  cases hm with
  | dispatch i l j job t hl pc next set =>
    have hset := TaskThread.setTaskAndRun_holds ticket set
    by_cases hkj : k = j
    · subst hkj
      simp only [setThread, Function.update_self] at huses ⊢
      have hzero : (s.threadPool k).uses = 0 := by omega
      have hk : k ∉ s.dispatched.map Dispatch.thread := List.count_eq_zero.mp ((hv.uses k).symm.trans hzero)
      have htask := hv.fresh hk (TaskThread.step_fault set)
      have hold := h (by omega)
      have hsum := hset.1
      simp only [htask, Job.amount_none, Job.amount_some] at hsum
      simp only [gave, List.filter_append, List.map_append, List.count_append] at hold ⊢
      simp only [decide_true, List.filter_cons_of_pos, List.filter_nil, List.map_cons, List.map_nil,
        List.count_singleton, beq_iff_eq]
      omega
    · have hold := h (by simpa [setThread, hkj, put] using huses)
      simpa [setThread, hkj, put, gave, Ne.symm hkj] using hold
  | proceed i l j t hl pc proceed call =>
    have hsetting := hg.calls i l j hl (by rw [pc]; rfl)
    exact hkeep j t (TaskThread.proceed_kept hsetting (TaskThread.step_proceed proceed)) rfl rfl
  | «return» i l j t hl pc proceed call =>
    have hsetting := hg.calls i l j hl (by rw [pc]; rfl)
    exact hkeep j t (TaskThread.proceed_kept hsetting (TaskThread.step_proceed proceed)) rfl rfl
  | thread j b t internal step => exact hkeep j t (TaskThread.step_inside internal step).toKept rfl rfl
  | _ => exact h huses

lemma holds_gave (ticket : ℕ) (h : (system (σ := σ) (π := π)).Reachable s) (huses : (s.threadPool k).uses ≤ 1) :
    (s.threadPool k).holds ticket = (s.gave k).count ticket := by
  revert huses
  refine h.induct (I := fun s => (s.threadPool k).uses ≤ 1 →
    (s.threadPool k).holds ticket = (s.gave k).count ticket) ?_ fun s a s' hr ih hs => ?_
  · simp [system, init, gave, TaskThread.init, TaskThread.holds]
  · exact holds_moves ticket (guarded hr) (given hr) (step_cases hs).2 ih

def Done (s : TaskScheduler σ π) (k : Fin 10) : Prop :=
  ∀ ticket ∈ s.gave k, ticket ∈ (s.threadPool k).completions.map Completion.ticket

lemma done_of_finished (h : (system (σ := σ) (π := π)).Reachable s) (huses : (s.threadPool k).uses ≤ 1)
    (htask : (s.threadPool k).task = none) (hfin : ∀ pc ∈ (s.threadPool k).workers, pc = .finished) : s.Done k := by
  intro ticket hmem
  have hholds := holds_gave ticket h huses
  have hcount := List.count_pos_iff.mpr hmem
  have hworkers : ((s.threadPool k).workers.map fun pc => Job.amount ticket pc.tmp).sum = 0 := by
    apply List.sum_eq_zero
    intro n hn
    obtain ⟨pc, hpc, rfl⟩ := List.mem_map.mp hn
    rw [hfin pc hpc]
    exact Job.amount_none
  simp only [TaskThread.holds, htask, Job.amount_none, hworkers] at hholds
  exact List.count_pos_iff.mp (by omega)

/-- A call of `set_task_and_run` returns only when its worker is past its start, and a thread is looked
at, and given a task, only when no worker is about to complete one. -/
structure Timely (s : TaskScheduler σ π) (a : Action σ π) : Prop where
  returns : ∀ i l k w pc, a = .loop i → s.startups[i]? = some l → l.pc = .dispatching k →
    (s.threadPool k).call = .woken w → (s.threadPool k).workers[w]? = some pc →
      pc.early = false ∧ pc.late = false
  looks : ∀ i l k, a = .loop i → s.startups[i]? = some l → l.pc = .scanning k →
    ∀ pc ∈ (s.threadPool k).workers, pc.late = false
  gives : ∀ i l k, a = .loop i → s.startups[i]? = some l → l.pc = .locked k →
    (s.threadPool k).running = false

/-- What a step does with the thread that it is about: it gives a task only to one whose `task_` is
empty, returns from `set_task_and_run` only with the thread running or its tasks completed, and finds a
thread unused only then. -/
structure OneTask (s : TaskScheduler σ π) (a : Action σ π) : Prop where
  returns : ∀ i l k w, a = .loop i → s.startups[i]? = some l → l.pc = .dispatching k →
    (s.threadPool k).call = .woken w → (s.threadPool k).running = true ∨ s.Done k
  finds : ∀ i l k, a = .loop i → s.startups[i]? = some l → l.pc = .scanning k →
    (s.threadPool k).running = false → s.Done k ∧ (s.threadPool k).task = none
  gives : ∀ i l k, a = .loop i → s.startups[i]? = some l → l.pc = .locked k →
    (s.threadPool k).call = .idle → (s.threadPool k).task = none

def Settled (s : TaskScheduler σ π) : Prop :=
  ∀ k, (s.threadPool k).call = .idle → ∀ pc ∈ (s.threadPool k).workers, pc.early = false

lemma Settled.setThread {t : TaskThread σ π} (h : s.Settled)
    (ht : t.call = .idle → ∀ pc ∈ t.workers, pc.early = false)
    (hpool : s'.threadPool = Function.update s.threadPool k t) : s'.Settled := by
  intro j hidle
  rw [hpool] at hidle ⊢
  by_cases hjk : j = k
  · subst hjk
    rw [Function.update_self] at hidle ⊢
    exact ht hidle
  · rw [Function.update_of_ne hjk] at hidle ⊢
    exact h j hidle

lemma Settled.step (h : s.Settled) (hr : (system (σ := σ) (π := π)).Reachable s) (ht : s.Timely a)
    (hs : s.step a = some s') : s'.Settled := by
  obtain ⟨halive, hm⟩ := step_cases hs
  cases hm with
  | dispatch i l k job t hl pc next set =>
    have hcall := (TaskThread.setTaskAndRun_holds 0 set).2.2.2.1
    exact h.setThread (k := k) (fun hidle => by simp [hcall] at hidle) rfl
  | proceed i l k t hl pc proceed call => exact h.setThread (k := k) (fun hidle => absurd hidle call) rfl
  | «return» i l k t hl pc proceed call =>
    have hsetting := (guarded hr).calls i l k hl (by rw [pc]; rfl)
    obtain ⟨⟨w, hwoken⟩, hworkers⟩ :=
      TaskThread.proceed_returns hsetting (TaskThread.step_proceed proceed) call
    have hshape := (TaskThread.sound ((given hr).reachable k)).shape (halive.2 k)
    obtain ⟨-, hlast, ws, p, hws, hold, -⟩ := hshape.woken hwoken
    refine h.setThread (k := k) (fun _ q hq => ?_) rfl
    rw [hworkers, hws] at hq
    rcases List.mem_append.mp hq with hq | hq
    · rw [hold q hq]
      rfl
    · have hp : (s.threadPool k).workers[w]? = some p := by
        obtain rfl : w = ws.length := by
          simp [hws] at hlast
          omega
        simp [hws]
      rw [List.mem_singleton.mp hq]
      exact (ht.returns i l k w p rfl hl pc hwoken hp).1
  | thread k b t internal step =>
    exact h.setThread (k := k) (fun hidle => TaskThread.internal_early internal step hidle (h k)) rfl
  | _ => exact h

lemma Guarded.idle (hg : s.Guarded) (hl : s.startups[i]? = some l) (hlocks : l.pc.locks = true)
    (hcalling : l.pc.calling = none) (k : Fin 10) : (s.threadPool k).call = .idle := by
  by_contra hc
  obtain ⟨j, l', hj, hcall⟩ := hg.busy k hc
  obtain rfl := hg.one j i l' l hj hl (LoopPc.calling_locks hcall) hlocks
  obtain rfl := Option.some.inj (hl.symm.trans hj)
  simp [hcalling] at hcall

lemma Settled.oneTask (h : s.Settled) (hr : (system (σ := σ) (π := π)).Reachable s) (halive : s.Alive)
    (ht : s.Timely a) : s.OneTask a := by
  have hshape : ∀ k, (s.threadPool k).Shape := fun k => (TaskThread.sound ((given hr).reachable k)).shape (halive.2 k)
  constructor
  · intro i l k w ha hl hpc hcall
    obtain ⟨huses, hlast, ws, p, hws, hold, hfits⟩ := (hshape k).woken hcall
    have hp : (s.threadPool k).workers[w]? = some p := by
      obtain rfl : w = ws.length := by
        simp [hws] at hlast
        omega
      simp [hws]
    obtain ⟨hearly, hlate⟩ := ht.returns i l k w p ha hl hpc hcall hp
    cases p with
    | created | started | notified | occupied => simp [WorkerPc.early] at hearly
    | stopped => simp [WorkerPc.late] at hlate
    | running | iterating | iterated => exact .inl hfits.2.1
    | holding => exact .inl hfits.2.2.1
    | finished =>
      refine .inr (done_of_finished hr huses.le hfits.1 fun q hq => ?_)
      rcases List.mem_append.mp (hws ▸ hq) with hq | hq
      · exact hold q hq
      · exact List.mem_singleton.mp hq
  · intro i l k ha hl hpc hrunning
    have hidle := (guarded hr).idle hl (by rw [hpc]; rfl) (by rw [hpc]; rfl) k
    obtain ⟨htask, hrest⟩ := (hshape k).unused hidle (h k hidle) hrunning
    refine ⟨?_, htask⟩
    rcases hrest with huses | hfin
    · intro ticket hmem
      have hlen := gave_length (given hr) k
      rw [huses, List.length_eq_zero_iff] at hlen
      simp [hlen] at hmem
    · have huses : (s.threadPool k).uses ≤ 1 := by
        cases hshape k with
        | quiet uses | stored uses | single uses => omega
        | doomed uses thread call => simp [hidle] at call
      refine done_of_finished hr huses htask fun pc hmem => ?_
      rcases hfin pc hmem with hpc' | hlate
      · exact hpc'
      · simp [ht.looks i l k ha hl hpc pc hmem] at hlate
  · intro i l k ha hl hpc hidle
    exact ((hshape k).unused hidle (h k hidle) (ht.gives i l k ha hl hpc)).1

end TaskScheduler

/-- One task per thread: exactly, for one call of `set_task_and_run`, when it returns past the start of
its worker and not between the clearing of `running_` and `complete`; and in the runs of a scheduler that
never return, look at a thread or give it a task at such a moment. -/
theorem one_task_per_thread :
    (∀ (t₀ t₁ t : TaskThread σ π) (job : Job σ π) h w, TaskThread.system.Reachable t₀ →
      t₀.step (.setTaskAndRun (some job)) = some t₁ → (TaskThread.system.since t₁).Run h t →
      TaskThread.Alone h → t.fault = none → t.call = .woken w →
      ∃ pc, t.workers[w]? = some pc ∧ ∀ t', t.step .proceed = some t' →
        ((t'.running = true ∨ ∃ c, t'.completions = t₀.completions ++ [c] ∧ c.ticket = job.ticket) ↔
          pc.early = false ∧ pc.late = false)) ∧
    ∀ (s : TaskScheduler σ π) h, TaskScheduler.system.Run h s → (∀ e ∈ h, e.1.Timely e.2) →
      ∀ e ∈ h, e.1.OneTask e.2 := by
  constructor
  · intro t₀ t₁ t job h w hr hset run halone hf hcall
    exact TaskThread.returns_iff hr hset run halone hf hcall
  · intro s h run htimely e he
    obtain ⟨u, hs⟩ := run.taken he
    obtain ⟨h₁, h₂, rfl, hrun⟩ := run.split he
    have hsettled : e.1.Settled := by
      refine hrun.invariant_of (C := TaskScheduler.Timely) (I := TaskScheduler.Settled) ?_ ?_ ?_
      · intro k _ pc hpc
        simp [TaskScheduler.system, TaskScheduler.init, TaskThread.init] at hpc
      · exact fun s a s' hr ht hI hs => hI.step hr ht hs
      · exact fun e he => htimely e (List.mem_append_left _ he)
    exact hsettled.oneTask ⟨h₁, hrun⟩ (TaskScheduler.step_cases hs).1 (htimely e he)

/-! The call returns before its worker has set `running_`; after a restart the same thread is found
unused, and its task is overwritten. -/

namespace Sample

def returnEarly : List Caller := .setTaskAndRun (some ⟨0, Graphs.Sample.task₁⟩) :: serve 0

def restartEarly : List Client :=
  dispatchFirst ++ [.shutdown, .storeKill] ++ steps 2 (.loop 0) ++ [.startup] ++ steps 10 (.loop 1)

end Sample

theorem one_task_per_thread_fails :
    (∃ t : TaskThread Unit Unit, TaskThread.system.exec TaskThread.init Sample.returnEarly = some t ∧
      t.fault = none ∧ t.call = .idle ∧ t.running = false ∧ t.task.isSome ∧ t.completions.length = 0) ∧
    ∃ s s' : TaskScheduler Unit Unit, TaskScheduler.system.exec TaskScheduler.init Sample.restartEarly = some s ∧
      s.startups[1]?.map Startup.pc = some (.found 0) ∧ (s.threadPool 0).task.map Job.ticket = some 0 ∧
      s.completed 0 = 0 ∧ TaskScheduler.system.exec s (Sample.steps 3 (.loop 1)) = some s' ∧
      (s'.threadPool 0).task.map Job.ticket = some 1 ∧ s'.completed 0 = 0 := by
  constructor
  · have hany : (TaskThread.system.exec TaskThread.init Sample.returnEarly).any (fun t =>
        t.fault = none ∧ t.call = .idle ∧ t.running = false ∧ t.task.isSome ∧ t.completions.length = 0) = true := by
      decide +kernel
    obtain ⟨t, ht, hp⟩ := System.exec_any hany
    exact ⟨t, ht, of_decide_eq_true hp⟩
  · have hany : (TaskScheduler.system.exec (TaskScheduler.init : TaskScheduler Unit Unit)
        Sample.restartEarly).any (fun s => s.startups[1]?.map Startup.pc = some (.found 0) ∧
          (s.threadPool 0).task.map Job.ticket = some 0 ∧ s.completed 0 = 0 ∧
          (TaskScheduler.system.exec s (Sample.steps 3 (.loop 1))).any fun s' =>
            (s'.threadPool 0).task.map Job.ticket = some 1 ∧ s'.completed 0 = 0) = true := by decide +kernel
    obtain ⟨s, hs, hp⟩ := System.exec_any hany
    obtain ⟨hpc, htask, hcompleted, hany⟩ := of_decide_eq_true hp
    obtain ⟨s', hs', hp⟩ := System.exec_any hany
    obtain ⟨htask', hcompleted'⟩ := of_decide_eq_true hp
    exact ⟨s, s', hs, hpc, htask, hcompleted, hs', htask', hcompleted'⟩

namespace Sample

def timely (e : TaskScheduler Unit Unit × Client) : Bool :=
  match e.2 with
  | .loop i => match (e.1.startups[i]?).map Startup.pc with
    | some (.dispatching k) => match (e.1.threadPool k).call with
      | .woken w => ((e.1.threadPool k).workers[w]?).all fun pc => !pc.early && !pc.late
      | _ => true
    | some (.scanning k) => (e.1.threadPool k).workers.all fun pc => !pc.late
    | some (.locked k) => !(e.1.threadPool k).running
    | _ => true
  | _ => true

lemma timely_of {s : TaskScheduler Unit Unit} {a : Client} (h : timely (s, a) = true) : s.Timely a := by
  constructor
  · rintro i l k w pc rfl hl hpc hcall hw
    simpa [timely, hl, hpc, hcall, hw] using h
  · rintro i l k rfl hl hpc
    simpa [timely, hl, hpc] using h
  · rintro i l k rfl hl hpc
    simpa [timely, hl, hpc] using h

end Sample

theorem one_task_per_thread_sample :
    (∃ t, TaskThread.system.exec Sample.stored (List.replicate 3 .proceed ++ Sample.works 0 2) = some t ∧
      ∃ pc, t.workers[0]? = some pc ∧ ∀ t', t.step .proceed = some t' →
        ((t'.running = true ∨ ∃ c, t'.completions = [] ++ [c] ∧ c.ticket = 0) ↔
          pc.early = false ∧ pc.late = false)) ∧
    ∃ s : TaskScheduler Unit Unit,
      TaskScheduler.system.exec TaskScheduler.init (Sample.handedOver ++ Sample.steps 2 (.work Sample.first 0 true) ++
        [.loop 0]) = some s ∧
      s.dispatched.map Dispatch.ticket = [0] ∧
      ∀ e ∈ TaskScheduler.system.trace TaskScheduler.init (Sample.handedOver ++
        Sample.steps 2 (.work Sample.first 0 true) ++ [.loop 0]), e.1.OneTask e.2 := by
  constructor
  · have hany : (TaskThread.system.exec Sample.stored (List.replicate 3 .proceed ++ Sample.works 0 2)).any (fun t =>
        t.fault = none ∧ t.call = .woken 0) = true := by decide +kernel
    obtain ⟨t, ht, hp⟩ := System.exec_any hany
    obtain ⟨hf, hcall⟩ := of_decide_eq_true hp
    refine ⟨t, ht, ?_⟩
    exact one_task_per_thread.1 TaskThread.init Sample.stored t ⟨0, Graphs.Sample.task₁⟩ _ 0 .start rfl
      (System.exec_trace ht) (Sample.alone_trace (by simp [Sample.works, or_imp, forall_and])) hf hcall
  · have hany : (TaskScheduler.system.exec (TaskScheduler.init : TaskScheduler Unit Unit) (Sample.handedOver ++
        Sample.steps 2 (.work Sample.first 0 true) ++ [.loop 0])).any
        (fun s => s.dispatched.map Dispatch.ticket = [0]) = true := by decide +kernel
    have htimely : (TaskScheduler.system.trace TaskScheduler.init (Sample.handedOver ++
        Sample.steps 2 (.work Sample.first 0 true) ++ [.loop 0])).all Sample.timely = true := by
      decide +kernel
    obtain ⟨s, hs, hp⟩ := System.exec_any hany
    refine ⟨s, hs, of_decide_eq_true hp, one_task_per_thread.2 s _ (System.exec_trace hs) fun e he => ?_⟩
    exact Sample.timely_of (List.all_eq_true.mp htimely e he)

end DagScheduler.Scheduling

import DagScheduler.SchedulingProofs.ReuseProofs
import DagScheduler.SchedulingProofs.WorkerProofs

/-! One task on a thread, from `set_task_and_run` on: where it is, which stages were called, and what
its status rests on. -/

namespace DagScheduler.Scheduling

open Graphs Library.Transitions

variable {σ π : Type}

inductive StageCall where
  | run (k : ℕ) (ok : Bool)
  | endStage (k : ℕ) (ok : Bool)
  deriving DecidableEq

def StageCall.ok : StageCall → Bool
  | .run _ ok | .endStage _ ok => ok

def StageCall.through (k : ℕ) : List StageCall :=
  (List.range k).flatMap fun j => [.run j true, .endStage j true]

def Job.flagged (job : Job σ π) (kill iterating : Bool) : Job σ π :=
  { job with task := { job.task with kill := kill, iterating := iterating } }

namespace TaskThread

variable {t t' : TaskThread σ π} {w : ℕ} {outcome : Bool} {pc : WorkerPc σ π} {a : Action σ π}
  {job : Job σ π} {c₀ : List (Completion π)} {h : List (TaskThread σ π × Action σ π)}
  {e : TaskThread σ π × Action σ π}

def stageCall : TaskThread σ π × Action σ π → Option StageCall
  | (t, .work w outcome) =>
    match t.workers[w]? with
    | some (.iterating _ (.inStage k)) => some (.run k outcome)
    | some (.iterating _ (.visited k true)) => some (.endStage k outcome)
    | _ => none
  | _ => none

def stageCalls (h : List (TaskThread σ π × Action σ π)) : List StageCall := h.filterMap stageCall

def ReadsInterrupt (k : ℕ) (value : Bool) (e : TaskThread σ π × Action σ π) : Prop :=
  ∃ w outcome ticket, e.2 = .work w outcome ∧
    e.1.workers[w]? = some (.iterating ticket (.ranStage k true)) ∧ e.1.interrupt = value

def ReadsKill (k : ℕ) (value : Bool) (e : TaskThread σ π × Action σ π) : Prop :=
  ∃ w ticket, e.2 = .work w true ∧ e.1.workers[w]? = some (.iterating ticket (.visited k true)) ∧
    e.1.task.map (fun job => job.task.kill) = some value

def Failed (job : Job σ π) (h : List (TaskThread σ π × Action σ π)) : Prop :=
  (∃ c ∈ stageCalls h, c.ok = false) ∨ job.task.iterating = true ∨
    (∃ k, ∃ e ∈ h, ReadsInterrupt k true e) ∨ ∃ k, ∃ e ∈ h, ReadsKill k true e

def Result (job : Job σ π) (h : List (TaskThread σ π × Action σ π)) : Bool → Prop
  | true => stageCalls h = StageCall.through job.task.stages.length ∧ ∀ k,
      k + 1 = job.task.stages.length → (∃ e ∈ h, ReadsInterrupt k false e) ∧ ∃ e ∈ h, ReadsKill k false e
  | false => Failed job h

def Iterates (job : Job σ π) (h : List (TaskThread σ π × Action σ π)) : StagePc → Prop
  | .next k => k ≤ job.task.stages.length ∧ stageCalls h = StageCall.through k ∧ ∀ j,
      j + 1 = k → (∃ e ∈ h, ReadsInterrupt j false e) ∧ ∃ e ∈ h, ReadsKill j false e
  | .inStage k => k < job.task.stages.length ∧ stageCalls h = StageCall.through k
  | .ranStage k status => k < job.task.stages.length ∧
      stageCalls h = StageCall.through k ++ [.run k status]
  | .visited k true => k < job.task.stages.length ∧
      stageCalls h = StageCall.through k ++ [.run k true] ∧ ∃ e ∈ h, ReadsInterrupt k false e
  | .visited _ false => Failed job h
  | .allOf ranAll => Result job h ranAll

def Told (job : Job σ π) (c₀ : List (Completion π)) (h : List (TaskThread σ π × Action σ π))
    (t : TaskThread σ π) : WorkerPc σ π → Prop
  | .created | .started | .notified | .occupied | .running =>
    (∃ kill, t.task = some (job.flagged kill job.task.iterating)) ∧ t.completions = c₀ ∧ stageCalls h = []
  | .iterating ticket pc => ticket = job.ticket ∧ (∃ kill, t.task = some (job.flagged kill true)) ∧
      t.completions = c₀ ∧ Iterates job h pc
  | .iterated allRan => (∃ kill iterating, t.task = some (job.flagged kill iterating)) ∧
      t.completions = c₀ ∧ Result job h allRan
  | .holding tmp allRan | .stopped tmp allRan => (∃ kill iterating, tmp = some (job.flagged kill iterating)) ∧
      t.completions = c₀ ∧ Result job h allRan
  | .finished => ∃ allRan, t.completions = c₀ ++ [⟨job.ticket, allRan, job.task.complete allRan⟩] ∧
      Result job h allRan

@[simp] lemma stageCalls_append (h : List (TaskThread σ π × Action σ π)) (e : TaskThread σ π × Action σ π) :
    stageCalls (h ++ [e]) = stageCalls h ++ (stageCall e).toList := by
  cases he : stageCall e <;> simp [stageCalls, he]

lemma exists_append {P : TaskThread σ π × Action σ π → Prop} (hp : ∃ e ∈ h, P e)
    (e : TaskThread σ π × Action σ π) : ∃ e' ∈ h ++ [e], P e' := by
  obtain ⟨e', he', hp⟩ := hp
  exact ⟨e', List.mem_append_left _ he', hp⟩

lemma exists_last {P : TaskThread σ π × Action σ π → Prop} (hp : P e) : ∃ e' ∈ h ++ [e], P e' :=
  ⟨e, by simp, hp⟩

lemma Failed.append (hf : Failed job h) (e : TaskThread σ π × Action σ π) : Failed job (h ++ [e]) := by
  rcases hf with hcall | hit | ⟨k, hread⟩ | ⟨k, hread⟩
  · obtain ⟨c, hc, hok⟩ := hcall
    exact .inl ⟨c, by simp [hc], hok⟩
  · exact .inr (.inl hit)
  · exact .inr (.inr (.inl ⟨k, exists_append hread e⟩))
  · exact .inr (.inr (.inr ⟨k, exists_append hread e⟩))

lemma Result.append {allRan : Bool} (hres : Result job h allRan) (he : stageCall e = none) :
    Result job (h ++ [e]) allRan := by
  cases allRan with
  | true =>
    obtain ⟨hcalls, hchecks⟩ := hres
    refine ⟨by simp [he, hcalls], fun k hk => ?_⟩
    exact ⟨exists_append (hchecks k hk).1 e, exists_append (hchecks k hk).2 e⟩
  | false => exact Failed.append hres e

lemma Iterates.append {at' : StagePc} (hit : Iterates job h at') (he : stageCall e = none) :
    Iterates job (h ++ [e]) at' := by
  cases at' with
  | next k =>
    obtain ⟨hk, hcalls, hchecks⟩ := hit
    refine ⟨hk, by simp [he, hcalls], fun j hj => ?_⟩
    exact ⟨exists_append (hchecks j hj).1 e, exists_append (hchecks j hj).2 e⟩
  | inStage k => exact ⟨hit.1, by simp [he, hit.2]⟩
  | ranStage k status => exact ⟨hit.1, by simp [he, hit.2]⟩
  | visited k cont =>
    cases cont with
    | true => exact ⟨hit.1, by simp [he, hit.2.1], exists_append hit.2.2 e⟩
    | false => exact Failed.append hit e
  | allOf ranAll => exact Result.append hit he

lemma Told.append (ht : Told job c₀ h t pc) (he : stageCall e = none) (htask : t'.task = t.task)
    (hcompletions : t'.completions = t.completions) : Told job c₀ (h ++ [e]) t' pc := by
  cases pc with
  | created | started | notified | occupied | running =>
    exact ⟨htask ▸ ht.1, hcompletions.trans ht.2.1, by simp [he, ht.2.2]⟩
  | iterating ticket pc => exact ⟨ht.1, htask ▸ ht.2.1, hcompletions.trans ht.2.2.1, ht.2.2.2.append he⟩
  | iterated allRan => exact ⟨htask ▸ ht.1, hcompletions.trans ht.2.1, ht.2.2.append he⟩
  | holding tmp allRan | stopped tmp allRan => exact ⟨ht.1, hcompletions.trans ht.2.1, ht.2.2.append he⟩
  | finished =>
    obtain ⟨allRan, hdone, hres⟩ := ht
    exact ⟨allRan, hcompletions.trans hdone, hres.append he⟩

lemma Told.kill {j : Job σ π} (ht : Told job c₀ h t pc) (hj : t.task = some j) :
    Told job c₀ h { t with task := some { j with task := j.task.killed } } pc := by
  have hkill : ∀ kill iterating, t.task = some (job.flagged kill iterating) →
      some { j with task := j.task.killed } = some (job.flagged true iterating) := by
    intro kill iterating htask
    obtain rfl := Option.some.inj (hj.symm.trans htask)
    rfl
  cases pc with
  | created | started | notified | occupied | running =>
    obtain ⟨⟨kill, htask⟩, hrest⟩ := ht
    exact ⟨⟨true, hkill kill _ htask⟩, hrest⟩
  | iterating ticket pc =>
    obtain ⟨hticket, ⟨kill, htask⟩, hrest⟩ := ht
    exact ⟨hticket, ⟨true, hkill kill _ htask⟩, hrest⟩
  | iterated allRan =>
    obtain ⟨⟨kill, iterating, htask⟩, hrest⟩ := ht
    exact ⟨⟨true, iterating, hkill kill iterating htask⟩, hrest⟩
  | holding | stopped | finished => exact ht

lemma through_succ (k : ℕ) :
    StageCall.through (k + 1) = StageCall.through k ++ [.run k true] ++ [.endStage k true] := by
  simp [StageCall.through, List.range_succ]

lemma Works.iterates {ticket : ℕ} {at' : StagePc} (hw : Works t w outcome (.iterating ticket at') t')
    (hpc : t.workers[w]? = some (.iterating ticket at')) (htask : ∃ kill, t.task = some (job.flagged kill true))
    (hticket : ticket = job.ticket) (hc : t.completions = c₀) (hit : Iterates job h at')
    (hf : t'.fault = none) : ∃ pc', t'.workers = t.workers.set w pc' ∧
      Told job c₀ (h ++ [(t, .work w outcome)]) t' pc' := by
  have hsame : ∀ {job' : Job σ π}, t.task = some job' → ∃ kill, job' = job.flagged kill true := by
    intro job' hjob
    obtain ⟨kill, htask⟩ := htask
    exact ⟨kill, Option.some.inj (hjob.symm.trans htask)⟩
  cases hw with
  | dangling frame early => simp at early
  | gone | stale => simp [fail] at hf
  | stage job' k task more lock =>
    have he : stageCall (t, .work w outcome) = none := by simp [stageCall, hpc]
    obtain ⟨kill, rfl⟩ := hsame task
    exact ⟨_, rfl, rfl, htask, hc, more, by simp [he, hit.2.1]⟩
  | ran job' k task =>
    have he : stageCall (t, .work w outcome) = some (.run k outcome) := by simp [stageCall, hpc]
    exact ⟨_, rfl, hticket, htask, hc, hit.1, by simp [he, hit.2]⟩
  | exhausted job' k task done =>
    have he : stageCall (t, .work w outcome) = none := by simp [stageCall, hpc]
    obtain ⟨kill, rfl⟩ := hsame task
    obtain ⟨hk, hcalls, hchecks⟩ := hit
    obtain rfl : k = job.task.stages.length := le_antisymm hk done
    have hres : Result job h true := ⟨hcalls, hchecks⟩
    exact ⟨_, rfl, hticket, htask, hc, hres.append he⟩
  | read job' k status task =>
    have he : stageCall (t, .work w outcome) = none := by simp [stageCall, hpc]
    refine ⟨_, rfl, hticket, htask, hc, ?_⟩
    cases status with
    | false =>
      refine .inl ⟨.run k false, ?_, rfl⟩
      simp [he, hit.2]
    | true =>
      cases hi : t.interrupt with
      | true => exact .inr (.inr (.inl ⟨k, exists_last ⟨w, outcome, _, rfl, hpc, hi⟩⟩))
      | false => exact ⟨hit.1, by simp [he, hit.2], exists_last ⟨w, outcome, _, rfl, hpc, hi⟩⟩
  | pass job' k task ended alive =>
    subst ended
    have he : stageCall (t, .work w true) = some (.endStage k true) := by simp [stageCall, hpc]
    refine ⟨_, rfl, hticket, htask, hc, hit.1, ?_, ?_⟩
    · simp [he, hit.2.1, through_succ]
    · intro j hj
      obtain rfl : j = k := Nat.succ.inj hj
      exact ⟨exists_append hit.2.2 _, exists_last ⟨w, _, rfl, hpc, by simp [task, alive]⟩⟩
  | giveUp job' k cont task bad =>
    refine ⟨_, rfl, hticket, htask, hc, ?_⟩
    cases cont with
    | false => exact Failed.append hit _
    | true =>
      cases outcome with
      | false =>
        have he : stageCall (t, .work w false) = some (.endStage k false) := by simp [stageCall, hpc]
        exact .inl ⟨.endStage k false, by simp [he], rfl⟩
      | true =>
        have hkill : job'.task.kill = true := by simpa using bad
        exact .inr (.inr (.inr ⟨k, exists_last ⟨w, _, rfl, hpc, by simp [task, hkill]⟩⟩))
  | iterated job' ranAll task =>
    have he : stageCall (t, .work w outcome) = none := by simp [stageCall, hpc]
    obtain ⟨kill, rfl⟩ := hsame task
    exact ⟨_, rfl, ⟨kill, false, rfl⟩, hc, Result.append hit he⟩

lemma Works.told (hw : Works t w outcome pc t') (hpc : t.workers[w]? = some pc)
    (ht : Told job c₀ h t pc) (hf : t'.fault = none) :
    ∃ pc', t'.workers = t.workers.set w pc' ∧ Told job c₀ (h ++ [(t, .work w outcome)]) t' pc' := by
  by_cases hit : ∃ ticket at', pc = .iterating ticket at'
  · obtain ⟨ticket, at', rfl⟩ := hit
    exact hw.iterates hpc ht.2.1 ht.1 ht.2.2.1 ht.2.2.2 hf
  have he : stageCall (t, .work w outcome) = none := by
    cases pc with
    | iterating ticket at' => exact absurd ⟨ticket, at', rfl⟩ hit
    | _ => simp [stageCall, hpc]
  cases hw with
  | dangling | gone | null => simp [fail] at hf
  | stale | stage | ran | exhausted | read | pass | giveUp | iterated => exact absurd ⟨_, _, rfl⟩ hit
  | start | notify | unheard | occupied | running => exact ⟨_, rfl, ht.append he rfl rfl⟩
  | empty task =>
    obtain ⟨⟨kill, htask⟩, -⟩ := ht
    simp [task] at htask
  | enter job' task =>
    obtain ⟨⟨kill, htask⟩, hc, hcalls⟩ := ht
    obtain rfl := Option.some.inj (task.symm.trans htask)
    exact ⟨_, rfl, rfl, ⟨kill, rfl⟩, hc, Nat.zero_le _, by simp [he, hcalls, StageCall.through], by simp⟩
  | nested job' task iterating =>
    obtain ⟨⟨kill, htask⟩, hc, hcalls⟩ := ht
    obtain rfl := Option.some.inj (task.symm.trans htask)
    exact ⟨_, rfl, ⟨kill, _, htask⟩, hc, .inr (.inl iterating)⟩
  | take allRan => exact ⟨_, rfl, ht.1, ht.2.1, ht.2.2.append he⟩
  | stop tmp allRan => exact ⟨_, rfl, ht.1, ht.2.1, ht.2.2.append he⟩
  | complete job' allRan =>
    obtain ⟨⟨kill, iterating, htmp⟩, hc, hres⟩ := ht
    obtain rfl := Option.some.inj htmp
    exact ⟨_, rfl, allRan, by rw [← hc]; rfl, hres.append he⟩

def Serves (job : Job σ π) (c₀ : List (Completion π)) (h : List (TaskThread σ π × Action σ π))
    (t : TaskThread σ π) : Prop :=
  (t.call = .stored ∧ Told job c₀ h t .created) ∨
    t.call ≠ .stored ∧ ∃ w pc, w + 1 = t.workers.length ∧ t.workers[w]? = some pc ∧ Told job c₀ h t pc

lemma Serves.keep (hserves : Serves job c₀ h t) (hworkers : t'.workers = t.workers)
    (hcall : t'.call = .stored ↔ t.call = .stored)
    (htold : ∀ pc, Told job c₀ h t pc → Told job c₀ (h ++ [e]) t' pc) : Serves job c₀ (h ++ [e]) t' := by
  rcases hserves with ⟨hstored, ht⟩ | ⟨hstored, w, pc, hlen, hpc, ht⟩
  · exact .inl ⟨hcall.mpr hstored, htold _ ht⟩
  · exact .inr ⟨fun hc => hstored (hcall.mp hc), w, pc, by rw [hworkers, hlen], by rw [hworkers, hpc], htold _ ht⟩

lemma Serves.proceed (hserves : Serves job c₀ h t) (hs : t.proceed = some t') (hf : t'.fault = none) :
    Serves job c₀ (h ++ [(t, .proceed)]) t' := by
  have he : stageCall (t, .proceed) = none := rfl
  cases proceed_cases hs with
  | spawn hcall =>
    rcases hserves with ⟨-, ht⟩ | ⟨hstored, -⟩
    · exact .inr ⟨by simp, t.workers.length, .created, by simp, by simp, ht.append he rfl rfl⟩
    · exact absurd hcall hstored
  | terminate => simp [fail] at hf
  | look hcall => exact hserves.keep rfl (by cases t.task <;> simp [hcall]) fun pc ht => ht.append he rfl rfl
  | kill j hcall htask => exact hserves.keep rfl (by simp [hcall]) fun pc ht => (ht.kill htask).append he rfl rfl
  | crash => simp [fail] at hf
  | stop hcall | spare hcall | interrupt hcall | unused hcall =>
    exact hserves.keep rfl (by simp [hcall]) fun pc ht => ht.append he rfl rfl
  | assign _ hcall | wait _ hcall | leave _ hcall | join _ hcall =>
    exact hserves.keep rfl (by simp [hcall]) fun pc ht => ht.append he rfl rfl

lemma Serves.work (hshape : t.Shape) (huses : t.uses ≤ 1) (hserves : Serves job c₀ h t)
    (hpc : t.workers[w]? = some pc) (hw : Works t w outcome pc t') (hf : t'.fault = none) :
    Serves job c₀ (h ++ [(t, .work w outcome)]) t' := by
  obtain ⟨-, -, hlast⟩ := hshape.live huses hpc hw.not_finished
  rcases hserves with ⟨hstored, -⟩ | ⟨hstored, v, pc', hlen, hpc', ht⟩
  · cases hshape with
    | quiet uses calm => exact absurd hw (calm.not_works hpc)
    | stored uses calm => exact absurd hw (calm.not_works hpc)
    | single uses ws pc workers old fits call => exact absurd hstored call
    | doomed uses => omega
  · obtain rfl : w = v := by omega
    obtain rfl := Option.some.inj (hpc.symm.trans hpc')
    obtain ⟨pc', hworkers, ht'⟩ := hw.told hpc ht hf
    refine .inr ⟨?_, w, pc', by rw [hworkers, List.length_set, hlen], ?_, ht'⟩
    · rcases hw.frame.2.2.2 with hcall | ⟨-, hcall⟩ <;> simp [hcall, hstored]
    · rw [hworkers, List.getElem?_set_self (by omega)]

lemma Serves.step (hr : system.Reachable t) (huses : t.uses ≤ 1) (hserves : Serves job c₀ h t)
    (hset : ∀ task, a ≠ .setTaskAndRun task) (hs : t.step a = some t') (hf : t'.fault = none) :
    Serves job c₀ (h ++ [(t, a)]) t' := by
  cases step_acts hs with
  | set task => exact absurd rfl (hset task)
  | shutdown hidle => exact hserves.keep rfl (by simp [hidle]) fun pc ht => ht.append rfl rfl rfl
  | proceed hs => exact hserves.proceed hs hf
  | wake w hcall => exact hserves.keep rfl (by simp [hcall]) fun pc ht => ht.append rfl rfl rfl
  | work w outcome pc hpc hw => exact hserves.work ((sound hr).shape (step_fault hs)) huses hpc hw hf
  | reach b | skip b => exact hserves.keep rfl Iff.rfl fun pc ht => ht.append rfl rfl rfl
  | kill b j _ htask => exact hserves.keep rfl Iff.rfl fun pc ht => (ht.kill htask).append rfl rfl rfl
  | crash => simp [fail] at hf
  | store n b => exact hserves.keep rfl Iff.rfl fun pc ht => ht.append rfl rfl rfl

/-- `job` is given to a thread whose earlier workers were joined. -/
structure Gives (t₀ : TaskThread σ π) (job : Job σ π) (t₁ : TaskThread σ π) : Prop where
  reachable : system.Reachable t₀
  joined : t₀.uses = 0
  step : t₀.step (.setTaskAndRun (some job)) = some t₁

lemma Gives.eq {t₀ t₁ : TaskThread σ π} (hg : Gives t₀ job t₁) : t₁ = { t₀ with
    task := some job, call := .stored, uses := 1 } := by
  cases step_acts hg.step with
  | set => rw [hg.joined]

def Alone (h : List (TaskThread σ π × Action σ π)) : Prop := ∀ e ∈ h, ∀ task, e.2 ≠ .setTaskAndRun task

lemma serves {t₀ t₁ : TaskThread σ π} (hg : Gives t₀ job t₁) (run : (system.since t₁).Run h t)
    (halone : Alone h) : t.uses ≤ 1 ∧ (t.fault = none → Serves job t₀.completions h t) := by
  have hr₁ : system.Reachable t₁ := reachable_step hg.reachable hg.step
  induction run with
  | start =>
    rw [show (system.since t₁).start = t₁ from rfl, hg.eq]
    exact ⟨le_refl 1, fun _ => .inl ⟨rfl, ⟨job.task.kill, rfl⟩, rfl, rfl⟩⟩
  | @step h u v a run hs ih =>
    have hs : u.step a = some v := hs
    have hset : ∀ task, a ≠ .setTaskAndRun task := halone (u, a) (by simp)
    obtain ⟨huses, hserves⟩ := ih fun e he => halone e (List.mem_append_left _ he)
    have hr : system.Reachable u := hr₁.since ⟨h, run⟩
    constructor
    · rcases step_uses hs with hu | hu | ⟨task, rfl, -⟩
      · omega
      · omega
      · exact absurd rfl (hset task)
    · exact (hserves (step_fault hs)).step hr huses hset hs

end TaskThread

end DagScheduler.Scheduling

import DagScheduler.SchedulingProofs.OrderProofs

/-! What a client gets from `kill_task`, `pause` and `shutdown` while calls of `startup` run. -/

namespace DagScheduler.Scheduling

open Graphs Library.Transitions

variable {σ π : Type}

/-- `pause_` was checked, and a thread may get the task without another look at it. -/
def LoopPc.pastPause : LoopPc → Bool
  | .locking | .scanning _ | .found _ | .acquiring _ | .locked _ => true
  | _ => false

/-- `kill_` was checked for the last time before a thread gets the task. -/
def LoopPc.pastKill : LoopPc → Bool
  | .acquiring _ | .locked _ => true
  | _ => false

namespace TaskScheduler

variable {s s' t : TaskScheduler σ π} {a : Action σ π} {i : ℕ} {l : Startup σ π} {ticket : ℕ}

lemma Moves.removed (hm : s.Moves a t) (h : ticket ∈ s.removed) : ticket ∈ t.removed := by
  cases hm with
  | unlink u => exact List.mem_append_left _ h
  | _ => exact h

lemma removed_since (h : ticket ∈ s.removed) (later : (system.since s).Reachable t) : ticket ∈ t.removed := by
  apply later.invariant (I := fun t => ticket ∈ t.removed) h
  intro s a t h hs
  exact (step_cases hs).2.removed h

lemma removed_not_started (hr : (system (σ := σ) (π := π)).Reachable s) (h : ticket ∈ s.removed) :
    ¬ s.Started ticket := by
  rintro ⟨k, n, hn⟩
  obtain ⟨d, hd, -, rfl⟩ := (given hr).stagesRun k ticket n hn
  have howners := owners_le_one d.ticket hr
  have hdispatched := List.count_pos_iff.mpr (List.mem_map_of_mem (f := Dispatch.ticket) hd)
  have hremoved := List.count_pos_iff.mpr h
  simp only [owners] at howners
  omega

theorem killTask_effective {u : UUID} (h : (system (σ := σ) (π := π)).Reachable s)
    (hs : s.step (.killTask u) = some s') (hreturned : s'.fault = none) :
    (∀ job, some job ∈ s.queue → job.Named u = true →
      ∀ t, (system.since s').Reachable t → ¬ t.Started job.ticket) ∧
    s'.startups = s.startups ∧ s'.threadPool = s.threadPool := by
  have hr' := reachable_step h hs
  obtain rfl : s.killTask u = s' := by
    simpa [TaskScheduler.step, (step_cases hs).1] using hs
  by_cases hnull : s.queue.any Option.isNone = true
  · simp [killTask, hnull] at hreturned
  · have hkill : s.killTask u = { s with
        queue := s.queue.filter fun e => !e.any (Job.Named u)
        removed := s.removed ++ Job.tickets (s.queue.filter fun e => e.any (Job.Named u)) } := if_neg hnull
    refine ⟨?_, by rw [hkill], by rw [hkill]⟩
    intro job hjob hnamed t later
    apply removed_not_started (hr'.since later)
    apply removed_since _ later
    rw [hkill]
    apply List.mem_append_right
    exact Job.mem_tickets.mpr ⟨job, List.mem_filter.mpr ⟨hjob, by simpa using hnamed⟩, rfl⟩

/-- How a call of `startup` moves while a flag is set. -/
structure Turn (s t : TaskScheduler σ π) (i : ℕ) (l x : Startup σ π) : Prop where
  startups : t.startups = s.startups.set i x
  dispatched : t.dispatched = s.dispatched ∨ ∃ k job, l.pc = .locked k ∧ l.nextTask = some job ∧
    x.pc = .dispatching k ∧ t.dispatched = s.dispatched ++ [⟨i, k, job.ticket⟩]
  paused : s.pause = true → x.pc.pastPause = true → l.pc.pastPause = true ∧ x.nextTask = l.nextTask
  killed : s.kill = true → x.pc.pastKill = true → l.pc.pastKill = true ∧ x.nextTask = l.nextTask
  pause : l.pc ≠ .starting → t.pause = s.pause
  kill : l.pc ≠ .unpaused → t.kill = s.kill

lemma loop_turn (hl : s.startups[i]? = some l) (hs : s.loop i l = some t) : ∃ x, Turn s t i l x := by
  obtain ⟨pc, n⟩ := l
  -- No flag and no thread is touched.
  have hgo : ∀ x : Startup σ π,
      (s.pause = true → x.pc.pastPause = true → pc.pastPause = true ∧ x.nextTask = n) →
      (s.kill = true → x.pc.pastKill = true → pc.pastKill = true ∧ x.nextTask = n) →
      t.startups = s.startups.set i x → t.dispatched = s.dispatched → t.pause = s.pause →
      t.kill = s.kill → ∃ x, Turn s t i ⟨pc, n⟩ x :=
    fun x hpause hkill hset hd hp hk => ⟨x, hset, .inl hd, hpause, hkill, fun _ => hp, fun _ => hk⟩
  have hback : ∀ x : Startup σ π, x.pc.pastPause = false → x.pc.pastKill = false →
      t.startups = s.startups.set i x → t.dispatched = s.dispatched → t.pause = s.pause →
      t.kill = s.kill → ∃ x, Turn s t i ⟨pc, n⟩ x :=
    fun x hpause hkill => hgo x (by simp [hpause]) (by simp [hkill])
  cases pc with
  | starting =>
    obtain rfl := Option.some.inj hs
    exact ⟨⟨.unpaused, n⟩, rfl, .inl rfl, by simp [LoopPc.pastPause], by simp [LoopPc.pastKill],
      fun h => absurd rfl h, fun _ => rfl⟩
  | unpaused =>
    obtain rfl := Option.some.inj hs
    exact ⟨⟨.outer, n⟩, rfl, .inl rfl, by simp [LoopPc.pastPause], by simp [LoopPc.pastKill],
      fun _ => rfl, fun h => absurd rfl h⟩
  | outer =>
    obtain rfl := Option.some.inj hs
    refine hgo _ ?_ ?_ rfl rfl rfl rfl <;> cases s.kill <;> simp [LoopPc.pastPause, LoopPc.pastKill]
  | checkKill =>
    obtain rfl := Option.some.inj hs
    refine hgo _ ?_ ?_ rfl rfl rfl rfl <;> cases s.kill <;> simp [LoopPc.pastPause, LoopPc.pastKill]
  | checkPause =>
    obtain rfl := Option.some.inj hs
    refine hgo _ ?_ ?_ rfl rfl rfl rfl <;> cases s.pause <;> simp [LoopPc.pastPause, LoopPc.pastKill]
  | polling =>
    cases hq : s.queue with
    | nil =>
      simp only [loop, hq, Option.some.injEq] at hs
      subst hs
      exact hback ⟨.outer, n⟩ rfl rfl rfl rfl rfl rfl
    | cons p rest =>
      cases p with
      | none =>
        simp only [loop, hq, Option.some.injEq] at hs
        subst hs
        exact hback ⟨.outer, n⟩ rfl rfl rfl rfl rfl rfl
      | some job =>
        simp only [loop, hq, Option.some.injEq] at hs
        subst hs
        exact hback ⟨.inner, some job⟩ rfl rfl rfl rfl rfl rfl
  | inner =>
    cases hk : s.kill with
    | true =>
      simp only [loop, hk, if_true, Option.some.injEq] at hs
      subst hs
      exact hback ⟨.outer, none⟩ rfl rfl rfl rfl rfl rfl
    | false =>
      simp only [loop, hk, Bool.false_eq_true, if_false, Option.some.injEq] at hs
      subst hs
      exact hback ⟨.innerPause, n⟩ rfl rfl rfl rfl rfl rfl
  | innerPause =>
    obtain rfl := Option.some.inj hs
    refine hgo _ ?_ ?_ rfl rfl rfl rfl <;> cases s.pause <;> simp [LoopPc.pastPause, LoopPc.pastKill]
  | locking =>
    simp only [loop, Option.ite_none_left_eq_some, Option.some.injEq] at hs
    obtain ⟨-, rfl⟩ := hs
    exact hgo ⟨.scanning 0, n⟩ (fun _ _ => ⟨rfl, rfl⟩) (by simp [LoopPc.pastKill]) rfl rfl rfl rfl
  | scanning k =>
    simp only [loop] at hs
    split at hs
    · split at hs <;> obtain rfl := Option.some.inj hs
      · exact hgo ⟨.scanning _, n⟩ (fun _ _ => ⟨rfl, rfl⟩) (by simp [LoopPc.pastKill]) rfl rfl rfl rfl
      · exact hback ⟨.inner, n⟩ rfl rfl rfl rfl rfl rfl
    · obtain rfl := Option.some.inj hs
      exact hgo ⟨.found k, n⟩ (fun _ _ => ⟨rfl, rfl⟩) (by simp [LoopPc.pastKill]) rfl rfl rfl rfl
  | found k =>
    cases hk : s.kill with
    | true =>
      simp only [loop, hk, if_true, Option.some.injEq] at hs
      subst hs
      exact hback ⟨.outer, none⟩ rfl rfl rfl rfl rfl rfl
    | false =>
      simp only [loop, hk, Bool.false_eq_true, if_false, Option.some.injEq] at hs
      subst hs
      exact hgo ⟨.acquiring k, n⟩ (fun _ _ => ⟨rfl, rfl⟩) (by simp [hk]) rfl rfl rfl rfl
  | acquiring k =>
    simp only [loop, Option.ite_none_left_eq_some, Option.some.injEq] at hs
    obtain ⟨-, rfl⟩ := hs
    exact hgo ⟨.locked k, n⟩ (fun _ _ => ⟨rfl, rfl⟩) (fun _ _ => ⟨rfl, rfl⟩) rfl rfl rfl rfl
  | locked k =>
    cases n with
    | none =>
      obtain rfl := Option.some.inj hs
      exact hback ⟨.inner, none⟩ rfl rfl rfl rfl rfl rfl
    | some job =>
      obtain ⟨thread, -, rfl⟩ := Option.map_eq_some_iff.mp hs
      exact ⟨⟨.dispatching k, none⟩, rfl, .inr ⟨k, job, rfl, rfl, rfl, rfl⟩, by simp [LoopPc.pastPause],
        by simp [LoopPc.pastKill], fun _ => rfl, fun _ => rfl⟩
  | dispatching k =>
    obtain ⟨thread, -, ht⟩ := Option.map_eq_some_iff.mp hs
    split at ht <;> subst ht
    · exact hback ⟨.inner, n⟩ rfl rfl rfl rfl rfl rfl
    · refine hback ⟨.dispatching k, n⟩ rfl rfl ?_ rfl rfl rfl
      obtain ⟨hi, hget⟩ := List.getElem?_eq_some_iff.mp hl
      rw [← hget]
      simp [setThread]
  | returned => simp [loop] at hs

structure Passed (past : LoopPc → Bool) (s t : TaskScheduler σ π) (ds : List Dispatch) : Prop where
  dispatched : t.dispatched = s.dispatched ++ ds
  once : (ds.map Dispatch.loop).Nodup
  held : ∀ d ∈ ds, ∃ l, s.startups[d.loop]? = some l ∧ past l.pc = true ∧
    l.nextTask.map Job.ticket = some d.ticket

structure Passing (past : LoopPc → Bool) (s t : TaskScheduler σ π) (ds : List Dispatch) : Prop
    extends Passed past s t ds where
  rest : ∀ (i : ℕ) (l : Startup σ π), t.startups[i]? = some l → past l.pc = true →
    (∃ l₀, s.startups[i]? = some l₀ ∧ past l₀.pc = true ∧ l₀.nextTask = l.nextTask) ∧
      i ∉ ds.map Dispatch.loop

variable {past : LoopPc → Bool} {u : TaskScheduler σ π} {ds : List Dispatch} {x : Startup σ π}

lemma Passing.turn (h : Passing past s t ds) (hlocked : ∀ k, past (.locked k) = true)
    (hdispatching : ∀ k, past (.dispatching k) = false) (hl : t.startups[i]? = some l)
    (turn : Turn t u i l x)
    (hkeep : past x.pc = true → past l.pc = true ∧ x.nextTask = l.nextTask) :
    ∃ ds', Passing past s u ds' := by
  have hrest : ∀ (j : ℕ) (l' : Startup σ π), u.startups[j]? = some l' → past l'.pc = true →
      (∃ l₀, s.startups[j]? = some l₀ ∧ past l₀.pc = true ∧ l₀.nextTask = l'.nextTask) ∧
        j ∉ ds.map Dispatch.loop := by
    intro j l' hj hpast
    rw [turn.startups] at hj
    rcases set_cases hj with ⟨rfl, rfl⟩ | ⟨-, hj⟩
    · obtain ⟨hpast, hnext⟩ := hkeep hpast
      rw [hnext]
      exact h.rest j l hl hpast
    · exact h.rest j l' hj hpast
  rcases turn.dispatched with hd | ⟨k, job, hpc, hjob, hx, hd⟩
  · exact ⟨ds, ⟨hd.trans h.dispatched, h.once, h.held⟩, hrest⟩
  · obtain ⟨⟨l₀, hl₀, hpast, hnext⟩, hnew⟩ := h.rest i l hl (hpc ▸ hlocked k)
    refine ⟨ds ++ [⟨i, k, job.ticket⟩], ⟨?_, ?_, ?_⟩, ?_⟩
    · rw [hd, h.dispatched, List.append_assoc]
    · rw [List.map_append]
      apply List.Nodup.append h.once (List.nodup_singleton _)
      simpa using hnew
    · intro d hmem
      rcases List.mem_append.mp hmem with hmem | hmem
      · exact h.held d hmem
      · obtain rfl := List.mem_singleton.mp hmem
        exact ⟨l₀, hl₀, hpast, by rw [hnext, hjob, Option.map_some]⟩
    · intro j l' hj hpast'
      obtain ⟨hold, hnot⟩ := hrest j l' hj hpast'
      refine ⟨hold, ?_⟩
      have hji : j ≠ i := by
        rintro rfl
        rw [turn.startups, set_self hl] at hj
        obtain rfl := Option.some.inj hj
        simp [hx, hdispatching] at hpast'
      simpa [hji] using hnot

lemma step_clients (ha : ∀ i, a ≠ .loop i) (hs : s.step a = some t) :
    t.dispatched = s.dispatched ∧
      (t.startups = s.startups ∨ t.startups = s.startups ++ [⟨.starting, none⟩]) ∧
      (a ≠ .resume → s.pause = true → t.pause = true) ∧ (s.kill = true → t.kill = true) := by
  have halive := (step_cases hs).1
  cases a with
  | loop i => exact absurd rfl (ha i)
  | killTask v =>
    obtain rfl : s.killTask v = t := by simpa [TaskScheduler.step, halive] using hs
    unfold killTask
    split <;> exact ⟨rfl, .inl rfl, fun _ => id, id⟩
  | storeKill =>
    simp only [TaskScheduler.step, halive, not_true, if_false, Option.ite_none_left_eq_some,
      Option.some.injEq] at hs
    obtain ⟨-, rfl⟩ := hs
    exact ⟨rfl, .inl rfl, fun _ => id, fun _ => rfl⟩
  | startup =>
    simp only [TaskScheduler.step, halive, not_true, if_false, Option.some.injEq] at hs
    subst hs
    exact ⟨rfl, .inr rfl, fun _ => id, id⟩
  | wake k =>
    simp only [TaskScheduler.step, halive, not_true, if_false, Option.map_eq_some_iff] at hs
    obtain ⟨thread, -, rfl⟩ := hs
    exact ⟨rfl, .inl rfl, fun _ => id, id⟩
  | work k w outcome =>
    simp only [TaskScheduler.step, halive, not_true, if_false, Option.map_eq_some_iff] at hs
    obtain ⟨thread, -, rfl⟩ := hs
    exact ⟨rfl, .inl rfl, fun _ => id, id⟩
  | _ =>
    simp only [TaskScheduler.step, halive, not_true, if_false, Option.some.injEq] at hs
    subst hs
    refine ⟨rfl, .inl rfl, ?_, ?_⟩ <;> simp

lemma step_loop (hs : s.step (.loop i) = some t) : ∃ l, s.startups[i]? = some l ∧ s.loop i l = some t := by
  simpa [TaskScheduler.step, (step_cases hs).1, Option.bind_eq_some_iff] using hs

lemma Passing.step (h : Passing past s t ds) (hlocked : ∀ k, past (.locked k) = true)
    (hdispatching : ∀ k, past (.dispatching k) = false) (hstarting : past .starting = false)
    (hkeep : ∀ i l x, Turn t u i l x → past x.pc = true → past l.pc = true ∧ x.nextTask = l.nextTask)
    (hs : t.step a = some u) : ∃ ds', Passing past s u ds' := by
  by_cases ha : ∃ i, a = .loop i
  · obtain ⟨i, rfl⟩ := ha
    obtain ⟨l, hl, hloop⟩ := step_loop hs
    obtain ⟨x, turn⟩ := loop_turn hl hloop
    exact h.turn hlocked hdispatching hl turn (hkeep i l x turn)
  · obtain ⟨hd, hset, -⟩ := step_clients (fun i hi => ha ⟨i, hi⟩) hs
    refine ⟨ds, ⟨hd.trans h.dispatched, h.once, h.held⟩, fun i l hl hpast => ?_⟩
    rcases hset with hset | hset
    · exact h.rest i l (hset ▸ hl) hpast
    · rcases append_cases (hset ▸ hl) with hl | ⟨-, rfl⟩
      · exact h.rest i l hl hpast
      · simp [hstarting] at hpast

lemma Passing.start (past : LoopPc → Bool) (s : TaskScheduler σ π) : Passing past s s [] :=
  ⟨⟨by simp, by simp, by simp⟩, fun _ l hl hpast => ⟨⟨l, hl, hpast, rfl⟩, by simp⟩⟩

def KeepsPause (s : TaskScheduler σ π) (a : Action σ π) : Prop :=
  a ≠ .resume ∧ ∀ i l, a = .loop i → s.startups[i]? = some l → l.pc ≠ .starting

def KeepsKill (s : TaskScheduler σ π) (a : Action σ π) : Prop :=
  ∀ i l, a = .loop i → s.startups[i]? = some l → l.pc ≠ .unpaused

lemma KeepsPause.step (h : s.KeepsPause a) (hpause : s.pause = true) (hs : s.step a = some t) :
    t.pause = true := by
  by_cases ha : ∃ i, a = .loop i
  · obtain ⟨i, rfl⟩ := ha
    obtain ⟨l, hl, hloop⟩ := step_loop hs
    obtain ⟨x, turn⟩ := loop_turn hl hloop
    exact (turn.pause (h.2 i l rfl hl)).trans hpause
  · exact (step_clients (fun i hi => ha ⟨i, hi⟩) hs).2.2.1 h.1 hpause

lemma KeepsKill.step (h : s.KeepsKill a) (hkill : s.kill = true) (hs : s.step a = some t) :
    t.kill = true := by
  by_cases ha : ∃ i, a = .loop i
  · obtain ⟨i, rfl⟩ := ha
    obtain ⟨l, hl, hloop⟩ := step_loop hs
    obtain ⟨x, turn⟩ := loop_turn hl hloop
    exact (turn.kill (h i l rfl hl)).trans hkill
  · exact (step_clients (fun i hi => ha ⟨i, hi⟩) hs).2.2.2 hkill

end TaskScheduler

/-- After `pause`, or `shutdown`, has returned, a call of `startup` dispatches nothing but the task that
it had carried past its last look at the flag. -/
theorem dispatches_after_flags :
    (∀ (s s' t : TaskScheduler σ π) h, s.step .pause = some s' → (TaskScheduler.system.since s').Run h t →
      (∀ e ∈ h, e.1.KeepsPause e.2) → ∃ ds, TaskScheduler.Passed LoopPc.pastPause s' t ds) ∧
    ∀ (s s' t : TaskScheduler σ π) h, s.step .storeKill = some s' → (TaskScheduler.system.since s').Run h t →
      (∀ e ∈ h, e.1.KeepsKill e.2) → ∃ ds, TaskScheduler.Passed LoopPc.pastKill s' t ds := by
  constructor
  · intro s s' t h hs run hkeeps
    have hpaused : s'.pause = true := by
      simp only [TaskScheduler.step, (TaskScheduler.step_cases hs).1, not_true, if_false,
        Option.some.injEq] at hs
      rw [← hs]
    have hinv := run.invariant_of (C := TaskScheduler.KeepsPause)
      (I := fun t => t.pause = true ∧ ∃ ds, TaskScheduler.Passing LoopPc.pastPause s' t ds)
      ⟨hpaused, [], .start _ _⟩ (fun t a u _ hc hI hstep => ?_) hkeeps
    · obtain ⟨-, ds, hds⟩ := hinv
      exact ⟨ds, hds.toPassed⟩
    · obtain ⟨hpause, ds, hds⟩ := hI
      exact ⟨hc.step hpause hstep, hds.step (fun _ => rfl) (fun _ => rfl) rfl
        (fun i l x turn => turn.paused hpause) hstep⟩
  · intro s s' t h hs run hkeeps
    have hkilled : s'.kill = true := by
      simp only [TaskScheduler.step, (TaskScheduler.step_cases hs).1, not_true, if_false,
        Option.ite_none_left_eq_some, Option.some.injEq] at hs
      rw [← hs.2]
    have hinv := run.invariant_of (C := TaskScheduler.KeepsKill)
      (I := fun t => t.kill = true ∧ ∃ ds, TaskScheduler.Passing LoopPc.pastKill s' t ds)
      ⟨hkilled, [], .start _ _⟩ (fun t a u _ hc hI hstep => ?_) hkeeps
    · obtain ⟨-, ds, hds⟩ := hinv
      exact ⟨ds, hds.toPassed⟩
    · obtain ⟨hkill, ds, hds⟩ := hI
      exact ⟨hc.step hkill hstep, hds.step (fun _ => rfl) (fun _ => rfl) rfl
        (fun i l x turn => turn.killed hkill) hstep⟩

/-! A task that a thread was given runs on after `kill_task`, and a task past the last check is
dispatched after `pause` and `shutdown`. -/

namespace Sample

def queued : TaskScheduler Unit Unit :=
  (TaskScheduler.system.exec TaskScheduler.init [.queueTask (some Graphs.Sample.task₁)]).get (by decide +kernel)

lemma queued_reachable : TaskScheduler.system.Reachable queued :=
  System.exec_reachable (Option.some_get _).symm

def given : List Client := [.queueTask (some Graphs.Sample.task₁), .startup] ++ steps 16 (.loop 0)

end Sample

theorem TaskScheduler.killTask_effective_fails :
    ∃ s s' t : TaskScheduler Unit Unit, TaskScheduler.system.exec TaskScheduler.init Sample.given = some s ∧
      s.step (.killTask Graphs.Sample.task₁.uuid) = some s' ∧ s'.fault = none ∧
      (s'.threadPool 0).task.any (Job.Named Graphs.Sample.task₁.uuid) = true ∧
      (s'.threadPool 0).stagesRun = [] ∧
      TaskScheduler.system.exec s' (Sample.steps 6 (.work Sample.first 0 true)) = some t ∧
      (t.threadPool 0).stagesRun = [(0, 0)] := by
  have hany : (TaskScheduler.system.exec (TaskScheduler.init : TaskScheduler Unit Unit) Sample.given).any (fun s =>
      (TaskScheduler.system.exec s [.killTask Graphs.Sample.task₁.uuid]).any fun s' =>
        s'.fault = none ∧ (s'.threadPool 0).task.any (Job.Named Graphs.Sample.task₁.uuid) = true ∧
          (s'.threadPool 0).stagesRun = [] ∧
          (TaskScheduler.system.exec s' (Sample.steps 6 (.work Sample.first 0 true))).any fun t =>
            (t.threadPool 0).stagesRun = [(0, 0)]) = true := by decide +kernel
  obtain ⟨s, hs, hany⟩ := System.exec_any hany
  obtain ⟨s', hs', hp⟩ := System.exec_any hany
  obtain ⟨hfault, htask, hstages, hany⟩ := of_decide_eq_true hp
  obtain ⟨t, ht, hp⟩ := System.exec_any hany
  exact ⟨s, s', t, hs, by simpa [System.exec, TaskScheduler.system] using hs', hfault, htask, hstages, ht,
    of_decide_eq_true hp⟩

/-- The call of `startup` that comes later finds nothing. -/
theorem TaskScheduler.killTask_effective_sample :
    ∃ t : TaskScheduler Unit Unit, TaskScheduler.system.exec (Sample.queued.killTask Graphs.Sample.task₁.uuid)
        (.startup :: Sample.steps 6 (.loop 0)) = some t ∧
      t.startups.map Startup.pc = [.outer] ∧ ¬ t.Started 0 ∧
      (Sample.queued.killTask Graphs.Sample.task₁.uuid).startups = [] := by
  have hany : (TaskScheduler.system.exec (Sample.queued.killTask Graphs.Sample.task₁.uuid)
      (.startup :: Sample.steps 6 (.loop 0))).any (fun t => t.startups.map Startup.pc = [.outer]) = true := by
    decide +kernel
  obtain ⟨t, ht, hp⟩ := System.exec_any hany
  have hstep : Sample.queued.step (.killTask Graphs.Sample.task₁.uuid) =
      some (Sample.queued.killTask Graphs.Sample.task₁.uuid) := rfl
  obtain ⟨hnever, hstartups, -⟩ :=
    TaskScheduler.killTask_effective Sample.queued_reachable hstep (by decide +kernel)
  have hlater : (TaskScheduler.system.since (Sample.queued.killTask Graphs.Sample.task₁.uuid)).Reachable t :=
    ⟨_, System.exec_trace ht⟩
  exact ⟨t, ht, of_decide_eq_true hp,
    hnever ⟨0, Graphs.Sample.task₁⟩ List.mem_cons_self (by decide +kernel) t hlater, hstartups⟩

theorem dispatches_after_flags_fails :
    (∃ s s' t : TaskScheduler Unit Unit,
      TaskScheduler.system.exec TaskScheduler.init
        ([.queueTask (some Graphs.Sample.task₁), .startup] ++ Sample.steps 8 (.loop 0)) = some s ∧
      s.step .pause = some s' ∧ TaskScheduler.system.exec s' (Sample.steps 5 (.loop 0)) = some t ∧
      s'.dispatched = [] ∧ t.dispatched = [⟨0, 0, 0⟩]) ∧
    ∃ s s' t : TaskScheduler Unit Unit,
      TaskScheduler.system.exec TaskScheduler.init
        ([.queueTask (some Graphs.Sample.task₁), .startup] ++ Sample.steps 11 (.loop 0) ++ [.shutdown]) = some s ∧
      s.step .storeKill = some s' ∧ TaskScheduler.system.exec s' (Sample.steps 2 (.loop 0)) = some t ∧
      s'.dispatched = [] ∧ t.dispatched = [⟨0, 0, 0⟩] := by
  constructor
  · have hany : (TaskScheduler.system.exec (TaskScheduler.init : TaskScheduler Unit Unit)
        ([.queueTask (some Graphs.Sample.task₁), .startup] ++ Sample.steps 8 (.loop 0))).any (fun s =>
        (TaskScheduler.system.exec s [.pause]).any fun s' => s'.dispatched = [] ∧
          (TaskScheduler.system.exec s' (Sample.steps 5 (.loop 0))).any fun t => t.dispatched = [⟨0, 0, 0⟩]) =
        true := by decide +kernel
    obtain ⟨s, hs, hany⟩ := System.exec_any hany
    obtain ⟨s', hs', hp⟩ := System.exec_any hany
    obtain ⟨hnone, hany⟩ := of_decide_eq_true hp
    obtain ⟨t, ht, hp⟩ := System.exec_any hany
    exact ⟨s, s', t, hs, by simpa [System.exec, TaskScheduler.system] using hs', ht, hnone, of_decide_eq_true hp⟩
  · have hany : (TaskScheduler.system.exec (TaskScheduler.init : TaskScheduler Unit Unit)
        ([.queueTask (some Graphs.Sample.task₁), .startup] ++ Sample.steps 11 (.loop 0) ++ [.shutdown])).any
        (fun s => (TaskScheduler.system.exec s [.storeKill]).any fun s' => s'.dispatched = [] ∧
          (TaskScheduler.system.exec s' (Sample.steps 2 (.loop 0))).any fun t => t.dispatched = [⟨0, 0, 0⟩]) =
        true := by decide +kernel
    obtain ⟨s, hs, hany⟩ := System.exec_any hany
    obtain ⟨s', hs', hp⟩ := System.exec_any hany
    obtain ⟨hnone, hany⟩ := of_decide_eq_true hp
    obtain ⟨t, ht, hp⟩ := System.exec_any hany
    exact ⟨s, s', t, hs, by simpa [System.exec, TaskScheduler.system] using hs', ht, hnone, of_decide_eq_true hp⟩

namespace Sample

lemma keeps_flags {s : TaskScheduler Unit Unit} {n : ℕ}
    (hpast : (TaskScheduler.system.trace s (steps n (.loop 0))).all (fun e => e.1.startups.all fun l =>
      l.pc ≠ .starting ∧ l.pc ≠ .unpaused) = true) :
    ∀ e ∈ TaskScheduler.system.trace s (steps n (.loop 0)), e.1.KeepsPause e.2 ∧ e.1.KeepsKill e.2 := by
  intro e he
  have hloop : e.2 = .loop 0 := List.eq_of_mem_replicate (System.trace_mem he)
  have hall := List.all_eq_true.mp hpast e he
  have hpc : ∀ (i : ℕ) (l : Startup Unit Unit), e.1.startups[i]? = some l → l.pc ≠ .starting ∧ l.pc ≠ .unpaused := fun i l hl =>
    of_decide_eq_true (List.all_eq_true.mp hall l (List.mem_of_getElem? hl))
  exact ⟨⟨by simp [hloop], fun i l _ hl => (hpc i l hl).1⟩, fun i l _ hl => (hpc i l hl).2⟩

end Sample

theorem dispatches_after_flags_sample :
    (∃ s s' t : TaskScheduler Unit Unit,
      TaskScheduler.system.exec TaskScheduler.init
        ([.queueTask (some Graphs.Sample.task₁), .startup] ++ Sample.steps 8 (.loop 0)) = some s ∧
      s.step .pause = some s' ∧ TaskScheduler.system.exec s' (Sample.steps 5 (.loop 0)) = some t ∧
      t.dispatched = [⟨0, 0, 0⟩] ∧ ∃ ds, TaskScheduler.Passed LoopPc.pastPause s' t ds) ∧
    ∃ s s' t : TaskScheduler Unit Unit,
      TaskScheduler.system.exec TaskScheduler.init
        ([.queueTask (some Graphs.Sample.task₁), .startup] ++ Sample.steps 11 (.loop 0) ++ [.shutdown]) = some s ∧
      s.step .storeKill = some s' ∧ TaskScheduler.system.exec s' (Sample.steps 2 (.loop 0)) = some t ∧
      t.dispatched = [⟨0, 0, 0⟩] ∧ ∃ ds, TaskScheduler.Passed LoopPc.pastKill s' t ds := by
  constructor
  · have hany : (TaskScheduler.system.exec (TaskScheduler.init : TaskScheduler Unit Unit)
        ([.queueTask (some Graphs.Sample.task₁), .startup] ++ Sample.steps 8 (.loop 0))).any (fun s =>
        (TaskScheduler.system.exec s [.pause]).any fun s' =>
          (TaskScheduler.system.trace s' (Sample.steps 5 (.loop 0))).all (fun e => e.1.startups.all fun l =>
            l.pc ≠ .starting ∧ l.pc ≠ .unpaused) = true ∧
          (TaskScheduler.system.exec s' (Sample.steps 5 (.loop 0))).any fun t => t.dispatched = [⟨0, 0, 0⟩]) =
        true := by decide +kernel
    obtain ⟨s, hs, hany⟩ := System.exec_any hany
    obtain ⟨s', hs', hp⟩ := System.exec_any hany
    obtain ⟨hpast, hany⟩ := of_decide_eq_true hp
    obtain ⟨t, ht, hp⟩ := System.exec_any hany
    have hstep : s.step .pause = some s' := by simpa [System.exec, TaskScheduler.system] using hs'
    exact ⟨s, s', t, hs, hstep, ht, of_decide_eq_true hp, dispatches_after_flags.1 s s' t _ hstep
      (System.exec_trace ht) fun e he => (Sample.keeps_flags hpast e he).1⟩
  · have hany : (TaskScheduler.system.exec (TaskScheduler.init : TaskScheduler Unit Unit)
        ([.queueTask (some Graphs.Sample.task₁), .startup] ++ Sample.steps 11 (.loop 0) ++ [.shutdown])).any
        (fun s => (TaskScheduler.system.exec s [.storeKill]).any fun s' =>
          (TaskScheduler.system.trace s' (Sample.steps 2 (.loop 0))).all (fun e => e.1.startups.all fun l =>
            l.pc ≠ .starting ∧ l.pc ≠ .unpaused) = true ∧
          (TaskScheduler.system.exec s' (Sample.steps 2 (.loop 0))).any fun t => t.dispatched = [⟨0, 0, 0⟩]) =
        true := by decide +kernel
    obtain ⟨s, hs, hany⟩ := System.exec_any hany
    obtain ⟨s', hs', hp⟩ := System.exec_any hany
    obtain ⟨hpast, hany⟩ := of_decide_eq_true hp
    obtain ⟨t, ht, hp⟩ := System.exec_any hany
    have hstep : s.step .storeKill = some s' := by simpa [System.exec, TaskScheduler.system] using hs'
    exact ⟨s, s', t, hs, hstep, ht, of_decide_eq_true hp, dispatches_after_flags.2 s s' t _ hstep
      (System.exec_trace ht) fun e he => (Sample.keeps_flags hpast e he).2⟩

end DagScheduler.Scheduling

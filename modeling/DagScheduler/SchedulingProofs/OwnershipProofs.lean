import DagScheduler.GraphProofs.WellFormed
import DagScheduler.SchedulingProofs.SchedulerProofs

/-! Every task has one owner: from the queue through a call of `startup` to a thread of the pool. -/

namespace DagScheduler.Scheduling

open Graphs Library.Transitions

variable {σ π : Type} {ticket : ℕ}

namespace Job

@[simp] lemma tickets_nil : tickets ([] : List (Option (Job σ π))) = [] := rfl

@[simp] lemma tickets_append (l₁ l₂ : List (Option (Job σ π))) :
    tickets (l₁ ++ l₂) = tickets l₁ ++ tickets l₂ := List.flatMap_append

lemma count_tickets (l : List (Option (Job σ π))) :
    (tickets l).count ticket = (l.map (amount ticket)).sum := by
  induction l with
  | nil => rfl
  | cons p l ih =>
    have hcons : tickets (p :: l) = (p.map Job.ticket).toList ++ tickets l := rfl
    rw [hcons, List.count_append, ih, List.map_cons, List.sum_cons]
    cases p with
    | none => simp
    | some job => simp [amount_some, List.count_singleton]

lemma count_tickets_cons (p : Option (Job σ π)) (l : List (Option (Job σ π))) :
    (tickets (p :: l)).count ticket = amount ticket p + (tickets l).count ticket := by
  simp [count_tickets]

lemma tickets_filter (ticket : ℕ) (p : Option (Job σ π) → Bool) (l : List (Option (Job σ π))) :
    (tickets (l.filter p)).count ticket + (tickets (l.filter fun e => !p e)).count ticket =
      (tickets l).count ticket := by
  rw [← List.count_append, ← tickets_append]
  exact ((List.filter_append_perm p l).flatMap_right _).count_eq ticket

end Job

namespace TaskScheduler

variable {s s' : TaskScheduler σ π} {a : Action σ π} {i : ℕ} {l x : Startup σ π}

def accepted (s : TaskScheduler σ π) (ticket : ℕ) : ℕ := if (s.queued[ticket]?).join.isSome then 1 else 0

/-- How often a task is in the queue, in a `next_task`, or was taken out of these. -/
def owners (s : TaskScheduler σ π) (ticket : ℕ) : ℕ :=
  (Job.tickets s.queue).count ticket + (s.startups.map fun l => Job.amount ticket l.nextTask).sum +
    (s.dispatched.map Dispatch.ticket).count ticket + s.discarded.count ticket + s.removed.count ticket

lemma sum_put (ticket : ℕ) (hl : s.startups[i]? = some l) (x : Startup σ π) :
    ((s.startups.set i x).map fun l => Job.amount ticket l.nextTask).sum + Job.amount ticket l.nextTask =
      (s.startups.map fun l => Job.amount ticket l.nextTask).sum + Job.amount ticket x.nextTask :=
  sum_map_set _ hl

lemma owners_queueTask (s : TaskScheduler σ π) (ticket : ℕ) (t : Option (Task σ π)) :
    Job.amount ticket (t.map fun t => (⟨s.queued.length, t⟩ : Job σ π)) + s.accepted ticket =
      if ((s.queued ++ [t])[ticket]?).join.isSome then 1 else 0 := by
  unfold accepted
  rcases lt_trichotomy ticket s.queued.length with hlt | heq | hgt
  · have hne : s.queued.length ≠ ticket := by omega
    rw [List.getElem?_append_left hlt]
    cases t <;> simp [Job.amount_some, hne]
  · subst heq
    cases t <;> simp [Job.amount_some]
  · have hne : s.queued.length ≠ ticket := by omega
    have hnone : s.queued[ticket]? = none := List.getElem?_eq_none (by omega)
    have hnone' : (s.queued ++ [t])[ticket]? = none := List.getElem?_eq_none (by simp; omega)
    cases t <;> simp [Job.amount_some, hne, hnone, hnone']

lemma owners_moves (ticket : ℕ) (hg : s.Guarded) (hm : s.Moves a s') :
    s'.owners ticket + s.accepted ticket = s.owners ticket + s'.accepted ticket := by
  have hsame : s'.queued = s.queued → s'.owners ticket = s.owners ticket →
      s'.owners ticket + s.accepted ticket = s.owners ticket + s'.accepted ticket := by
    intro hqueued howners
    simp only [accepted, hqueued, howners]
  cases hm with
  | queueTask t =>
    have hnew := owners_queueTask s ticket t
    simp only [owners, accepted, Job.tickets_append, List.count_append, Job.count_tickets_cons,
      Job.tickets_nil, List.count_nil] at hnew ⊢
    omega
  | unlink u =>
    apply hsame rfl
    have hsplit := Job.tickets_filter ticket (fun e => e.any (Job.Named u)) s.queue
    simp only [owners, List.count_append]
    omega
  | startup =>
    apply hsame rfl
    simp [owners]
  | pass i l pc p k hl =>
    apply hsame rfl
    have hsum := sum_put ticket hl { l with pc := pc }
    simp only [owners, put] at hsum ⊢
    omega
  | lock i l pc hl =>
    apply hsame rfl
    have hsum := sum_put ticket hl { l with pc := pc }
    simp only [owners, put] at hsum ⊢
    omega
  | unlock i l pc hl =>
    apply hsame rfl
    have hsum := sum_put ticket hl { l with pc := pc }
    simp only [owners, put] at hsum ⊢
    omega
  | popNull i l rest hl pc queue =>
    apply hsame rfl
    have hsum := sum_put ticket hl { l with pc := .outer }
    simp only [owners, put, queue, Job.count_tickets_cons, Job.amount_none] at hsum ⊢
    omega
  | pop i l job rest hl pc queue =>
    apply hsame rfl
    have hsum := sum_put ticket hl ⟨.inner, some job⟩
    have hempty : l.nextTask = none := hg.empty i l hl (.inl (by rw [pc]; rfl))
    simp only [owners, put, queue, Job.count_tickets_cons, hempty, Job.amount_none] at hsum ⊢
    omega
  | leave i l hl =>
    apply hsame rfl
    have hsum := sum_put ticket hl ⟨.outer, none⟩
    simp only [owners, leave, put, List.count_append, Job.count_tickets_cons, Job.tickets_nil,
      List.count_nil, Job.amount_none] at hsum ⊢
    omega
  | dispatch i l k job t hl pc next =>
    apply hsame rfl
    have hsum := sum_put ticket hl ⟨.dispatching k, none⟩
    simp only [next, Job.amount_none, Job.amount_some] at hsum
    simp only [owners, setThread, put, List.map_append, List.map_singleton, List.count_append,
      List.count_singleton, beq_iff_eq] at hsum ⊢
    omega
  | «return» i l k t hl =>
    apply hsame rfl
    have hsum := sum_put ticket hl { l with pc := .inner }
    simp only [owners, setThread, put] at hsum ⊢
    omega
  | null | flags | proceed | thread => rfl

lemma owners_eq (ticket : ℕ) (h : (system (σ := σ) (π := π)).Reachable s) : s.owners ticket = s.accepted ticket := by
  refine h.induct (I := fun s => s.owners ticket = s.accepted ticket) ?_ fun s a s' hr ih hs => ?_
  · simp [system, init, owners, accepted]
  · have hmoves := owners_moves ticket (guarded hr) (step_cases hs).2
    omega

lemma owners_le_one (ticket : ℕ) (h : (system (σ := σ) (π := π)).Reachable s) : s.owners ticket ≤ 1 := by
  rw [owners_eq ticket h, accepted]
  split <;> omega

def Once (s : TaskScheduler σ π) : Prop := (s.dispatched.map Dispatch.thread).Nodup

lemma Moves.once (hm : s.Moves a s') (h : s'.Once) : s.Once := by
  cases hm with
  | dispatch => exact (List.nodup_append.mp (by simpa [Once] using h)).1
  | _ => exact h

lemma Given.fresh {k : Fin 10} (h : s.Given) (hk : k ∉ s.dispatched.map Dispatch.thread)
    (hf : (s.threadPool k).fault = none) : (s.threadPool k).task = none := by
  have huses : (s.threadPool k).uses = 0 := (h.uses k).trans (List.count_eq_zero.mpr hk)
  cases (TaskThread.sound (h.reachable k)).shape hf with
  | quiet _ _ task => exact task
  | stored uses | single uses | doomed uses => omega

lemma sum_holds_setThread {k : Fin 10} {t : TaskThread σ π} (hkept : (s.threadPool k).Kept t) (ticket : ℕ) :
    ∑ j, (Function.update s.threadPool k t j).holds ticket = ∑ j, (s.threadPool j).holds ticket := by
  have hsum := sum_update (TaskThread.holds ticket) s.threadPool k t
  have hkeep := hkept.holds ticket
  omega

lemma sum_holds_moves (ticket : ℕ) (hg : s.Guarded) (hv : s.Given) (hm : s.Moves a s') (honce : s'.Once)
    (h : ∑ k, (s.threadPool k).holds ticket = (s.dispatched.map Dispatch.ticket).count ticket) :
    ∑ k, (s'.threadPool k).holds ticket = (s'.dispatched.map Dispatch.ticket).count ticket := by
  cases hm with
  | dispatch i l k job t hl pc next set =>
    have hk : k ∉ s.dispatched.map Dispatch.thread := by
      intro hk
      have hnodup : (s.dispatched.map Dispatch.thread ++ [k]).Nodup := by simpa [Once] using honce
      exact (List.nodup_append.mp hnodup).2.2 k hk k List.mem_cons_self rfl
    have htask := hv.fresh hk (TaskThread.step_fault set)
    have hsum := sum_update (TaskThread.holds ticket) s.threadPool k t
    have hset := (TaskThread.setTaskAndRun_holds ticket set).1
    simp only [htask, Job.amount_none, Job.amount_some] at hset
    simp only [setThread, put, List.map_append, List.map_singleton, List.count_append, List.count_singleton,
      beq_iff_eq]
    omega
  | proceed i l k t hl pc proceed call =>
    have hsetting := hg.calls i l k hl (by rw [pc]; rfl)
    have hkept := TaskThread.proceed_kept hsetting (TaskThread.step_proceed proceed)
    exact (sum_holds_setThread hkept ticket).trans h
  | «return» i l k t hl pc proceed call =>
    have hsetting := hg.calls i l k hl (by rw [pc]; rfl)
    have hkept := TaskThread.proceed_kept hsetting (TaskThread.step_proceed proceed)
    exact (sum_holds_setThread hkept ticket).trans h
  | thread k b t internal step =>
    exact (sum_holds_setThread (TaskThread.step_inside internal step).toKept ticket).trans h
  | _ => exact h

lemma sum_holds_eq (ticket : ℕ) (h : (system (σ := σ) (π := π)).Reachable s) (honce : s.Once) :
    ∑ k, (s.threadPool k).holds ticket = (s.dispatched.map Dispatch.ticket).count ticket := by
  revert honce
  refine h.induct (I := fun s => s.Once → ∑ k, (s.threadPool k).holds ticket =
    (s.dispatched.map Dispatch.ticket).count ticket) ?_ fun s a s' hr ih hs honce => ?_
  · exact fun _ => by simp [system, init, TaskThread.holds, TaskThread.init]
  · obtain ⟨-, hm⟩ := step_cases hs
    exact sum_holds_moves ticket (guarded hr) (given hr) hm honce (ih (hm.once honce))

def inQueue (s : TaskScheduler σ π) (ticket : ℕ) : ℕ := (Job.tickets s.queue).count ticket

def inHand (s : TaskScheduler σ π) (ticket : ℕ) : ℕ :=
  (s.startups.map fun l => Job.amount ticket l.nextTask).sum

def onThreads (s : TaskScheduler σ π) (ticket : ℕ) : ℕ := ∑ k, Job.amount ticket (s.threadPool k).task

def inWorkers (s : TaskScheduler σ π) (ticket : ℕ) : ℕ :=
  ∑ k, ((s.threadPool k).workers.map fun pc => Job.amount ticket pc.tmp).sum

def completed (s : TaskScheduler σ π) (ticket : ℕ) : ℕ :=
  ∑ k, ((s.threadPool k).completions.map Completion.ticket).count ticket

lemma discarded_cases (hs : s.step a = some s') (hd : ticket ∈ s'.discarded) :
    ticket ∈ s.discarded ∨ s.kill = true ∧ ∃ (i : ℕ) (l : Startup σ π), a = .loop i ∧
      s.startups[i]? = some l ∧ l.nextTask.map Job.ticket = some ticket := by
  obtain ⟨-, hm⟩ := step_cases hs
  cases hm with
  | leave i l hl locks kill =>
    rcases List.mem_append.mp hd with hd | hd
    · exact .inl hd
    · refine .inr ⟨kill, i, l, rfl, hl, ?_⟩
      cases hnext : l.nextTask with
      | none => simp [Job.tickets, hnext] at hd
      | some job => simpa [Job.tickets, hnext, eq_comm] using hd
  | _ => exact .inl hd

/-- Every task is in one place, as long as no thread of the pool was given a second one, and is
destroyed without `complete` only by a call of `startup` that saw `kill_` after it popped the task. -/
theorem no_task_lost (h : (system (σ := σ) (π := π)).Reachable s) (honce : s.Once) {t : Task σ π}
    (hqueued : s.queued[ticket]? = some (some t)) :
    s.inQueue ticket + s.inHand ticket + s.onThreads ticket + s.inWorkers ticket + s.completed ticket +
        s.discarded.count ticket + s.removed.count ticket = 1 ∧
      ∀ a s', s.step a = some s' → ticket ∈ s'.discarded → ticket ∈ s.discarded ∨ s.kill = true ∧
        ∃ (i : ℕ) (l : Startup σ π), a = .loop i ∧ s.startups[i]? = some l ∧
          l.nextTask.map Job.ticket = some ticket := by
  refine ⟨?_, fun a s' hs hd => discarded_cases hs hd⟩
  have howners := owners_eq ticket h
  have hholds := sum_holds_eq ticket h honce
  have haccepted : s.accepted ticket = 1 := by simp [accepted, hqueued]
  simp only [TaskThread.holds, Finset.sum_add_distrib] at hholds
  simp only [owners, haccepted] at howners
  simp only [inQueue, inHand, onThreads, inWorkers, completed]
  omega

end TaskScheduler

/-! A task that was popped when `shutdown` came. -/

namespace Sample

abbrev Client := TaskScheduler.Action Unit Unit

lemma zero_lt_ten : 0 < 10 := by decide

lemma one_lt_ten : 1 < 10 := by decide

def first : Fin 10 := ⟨0, zero_lt_ten⟩

def second : Fin 10 := ⟨1, one_lt_ten⟩

def steps (n : ℕ) (a : Client) : List Client := List.replicate n a

def popped : List Client := [.queueTask (some Graphs.Sample.task₁), .startup] ++ steps 6 (.loop 0)

def shutDown : TaskScheduler Unit Unit :=
  (TaskScheduler.system.exec TaskScheduler.init (popped ++ [.shutdown, .storeKill, .loop 0])).get
    (by decide +kernel)

lemma shutDown_reachable : TaskScheduler.system.Reachable shutDown :=
  System.exec_reachable (Option.some_get _).symm

/-- One of two tasks was given to a thread, whose worker has begun. -/
def handedOver : List Client :=
  [.queueTask (some Graphs.Sample.task₁), .queueTask (some Graphs.Sample.task₂), .startup] ++
    steps 16 (.loop 0) ++ steps 2 (.work first 0 true)

end Sample

theorem TaskScheduler.no_task_lost_fails :
    ∃ s : TaskScheduler Unit Unit, TaskScheduler.system.Reachable s ∧
      (∃ t, s.queued[0]? = some (some t)) ∧ 0 ∉ s.removed ∧ s.inQueue 0 = 0 ∧ s.inHand 0 = 0 ∧
        s.onThreads 0 = 0 ∧ s.inWorkers 0 = 0 ∧ s.completed 0 = 0 := by
  refine ⟨Sample.shutDown, Sample.shutDown_reachable, ⟨Graphs.Sample.task₁, rfl⟩, ?_⟩
  decide +kernel

theorem TaskScheduler.no_task_lost_sample :
    ∃ s : TaskScheduler Unit Unit, TaskScheduler.system.exec TaskScheduler.init Sample.handedOver = some s ∧
      s.dispatched.map Dispatch.ticket = [0] ∧ ∀ ticket < 2,
        s.inQueue ticket + s.inHand ticket + s.onThreads ticket + s.inWorkers ticket + s.completed ticket +
          s.discarded.count ticket + s.removed.count ticket = 1 := by
  have hany : (TaskScheduler.system.exec (TaskScheduler.init : TaskScheduler Unit Unit) Sample.handedOver).any (fun s =>
      s.dispatched.map Dispatch.ticket = [0] ∧ (s.dispatched.map Dispatch.thread).Nodup ∧
        s.queued.map Option.isSome = [true, true]) = true := by decide +kernel
  obtain ⟨s, hs, hp⟩ := System.exec_any hany
  obtain ⟨hdispatched, honce, hqueued⟩ := of_decide_eq_true hp
  refine ⟨s, hs, hdispatched, fun ticket hlt => ?_⟩
  have hsome : s.queued[ticket]?.map Option.isSome = some true := by
    rw [← List.getElem?_map, hqueued]
    interval_cases ticket <;> rfl
  obtain ⟨p, hp, hp'⟩ := Option.map_eq_some_iff.mp hsome
  obtain ⟨t, rfl⟩ := Option.isSome_iff_exists.mp hp'
  exact (TaskScheduler.no_task_lost (System.exec_reachable hs) honce hp).1

end DagScheduler.Scheduling

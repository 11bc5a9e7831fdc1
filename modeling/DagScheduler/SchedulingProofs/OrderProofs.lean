import DagScheduler.GraphProofs.ProcessProofs
import DagScheduler.SchedulingProofs.OwnershipProofs

/-! Tasks leave the queue in the order they came, so the tasks of a graph are dispatched along its
edges. -/

namespace DagScheduler.Scheduling

open Graphs Library.Transitions Library.Programs

variable {σ π : Type}

namespace Job

lemma mem_tickets {ticket : ℕ} {l : List (Option (Job σ π))} :
    ticket ∈ tickets l ↔ ∃ job, some job ∈ l ∧ job.ticket = ticket := by
  simp only [tickets, List.mem_flatMap, Option.mem_toList, Option.map_eq_some_iff]
  constructor
  · rintro ⟨p, hp, job, rfl, hjob⟩
    exact ⟨job, hp, hjob⟩
  · rintro ⟨job, hp, hjob⟩
    exact ⟨some job, hp, job, rfl, hjob⟩

lemma tickets_sublist {l₁ l₂ : List (Option (Job σ π))} (h : l₁.Sublist l₂) :
    (tickets l₁).Sublist (tickets l₂) := h.flatMap _

@[simp] lemma tickets_cons_some (job : Job σ π) (l : List (Option (Job σ π))) :
    tickets (some job :: l) = job.ticket :: tickets l := rfl

@[simp] lemma tickets_cons_none (l : List (Option (Job σ π))) : tickets (none :: l) = tickets l := rfl

end Job

namespace TaskScheduler

variable {s s' : TaskScheduler σ π} {a : Action σ π} {i : ℕ} {l : Startup σ π}

def Hands (P : ℕ → ℕ → Prop) (s : TaskScheduler σ π) : Prop :=
  ∀ (i : ℕ) (l : Startup σ π) job, s.startups[i]? = some l → l.nextTask = some job → P i job.ticket

lemma Hands.set {P : ℕ → ℕ → Prop} {x : Startup σ π} (h : s.Hands P)
    (hset : s'.startups = s.startups.set i x) (hx : ∀ job, x.nextTask = some job → P i job.ticket) :
    s'.Hands P := by
  intro j l' job hj hjob
  rw [hset] at hj
  rcases set_cases hj with ⟨rfl, rfl⟩ | ⟨-, hj⟩
  · exact hx job hjob
  · exact h j l' job hj hjob

/-- The queue is in order, after everything that left it; and a call of `startup` takes tasks in
order. -/
structure Ordered (s : TaskScheduler σ π) : Prop where
  queue : (Job.tickets s.queue).Pairwise (· < ·)
  past : ∀ b ∈ Job.tickets s.queue, ∀ d ∈ s.dispatched, d.ticket < b
  hand : ∀ b ∈ Job.tickets s.queue, s.Hands fun _ ticket => ticket < b
  turn : s.Hands fun i ticket => ∀ d ∈ s.dispatched, d.loop = i → d.ticket < ticket

lemma lt_queued {ticket : ℕ} (hr : (system (σ := σ) (π := π)).Reachable s) (h : s.owners ticket ≠ 0) :
    ticket < s.queued.length := by
  rw [owners_eq ticket hr] at h
  by_contra hge
  simp [accepted, List.getElem?_eq_none (Nat.not_lt.mp hge)] at h

lemma owners_hand {job : Job σ π} (hl : s.startups[i]? = some l) (hjob : l.nextTask = some job) :
    s.owners job.ticket ≠ 0 := by
  have hsum := sum_put job.ticket hl ⟨.outer, none⟩
  simp only [hjob, Job.amount_some, if_true, Job.amount_none] at hsum
  simp only [owners]
  omega

lemma owners_queue {ticket : ℕ} (h : ticket ∈ Job.tickets s.queue) : s.owners ticket ≠ 0 := by
  have hcount := List.count_pos_iff.mpr h
  simp only [owners]
  omega

lemma owners_dispatched {d : Dispatch} (h : d ∈ s.dispatched) : s.owners d.ticket ≠ 0 := by
  have hcount := List.count_pos_iff.mpr (List.mem_map_of_mem (f := Dispatch.ticket) h)
  simp only [owners]
  omega

lemma Ordered.shrink (h : s.Ordered) (hqueue : (Job.tickets s'.queue).Sublist (Job.tickets s.queue))
    (hdispatched : s'.dispatched = s.dispatched) (hhands : ∀ P, s.Hands P → s'.Hands P) : s'.Ordered where
  queue := h.queue.sublist hqueue
  past b hb := hdispatched ▸ h.past b (hqueue.subset hb)
  hand b hb := hhands _ (h.hand b (hqueue.subset hb))
  turn := hhands _ (hdispatched ▸ h.turn)

lemma Ordered.moves (hr : (system (σ := σ) (π := π)).Reachable s) (h : s.Ordered) (hm : s.Moves a s') :
    s'.Ordered := by
  have hput : ∀ (i : ℕ) (l x : Startup σ π), s.startups[i]? = some l →
      (∀ job, x.nextTask = some job → l.nextTask = some job) → ∀ s' : TaskScheduler σ π,
      s'.startups = s.startups.set i x → ∀ P, s.Hands P → s'.Hands P :=
    fun i l x hl hx s' hset P hP => hP.set hset fun job hjob => hP i l job hl (hx job hjob)
  cases hm with
  | queueTask t =>
    have hnew : ∀ b, b ∈ Job.tickets (s.queue ++ [t.map fun t => (⟨s.queued.length, t⟩ : Job σ π)]) →
        b ∈ Job.tickets s.queue ∨ b = s.queued.length := by
      intro b hb
      cases t with
      | none => exact .inl (by simpa using hb)
      | some t => simpa using hb
    constructor
    · cases t with
      | none => simpa using h.queue
      | some t =>
        simp only [Option.map_some, Job.tickets_append, Job.tickets_cons_some, Job.tickets_nil]
        refine List.pairwise_append.mpr ⟨h.queue, List.pairwise_singleton _ _, ?_⟩
        intro b hb c hc
        rw [List.mem_singleton.mp hc]
        exact lt_queued hr (owners_queue hb)
    · intro b hb d hd
      rcases hnew b hb with hb | rfl
      · exact h.past b hb d hd
      · exact lt_queued hr (owners_dispatched hd)
    · intro b hb j l' job hj hjob
      rcases hnew b hb with hb | rfl
      · exact h.hand b hb j l' job hj hjob
      · exact lt_queued hr (owners_hand hj hjob)
    · exact h.turn
  | null u | flags | proceed | thread => exact ⟨h.queue, h.past, h.hand, h.turn⟩
  | unlink u =>
    exact h.shrink (Job.tickets_sublist List.filter_sublist) rfl fun P hP => hP
  | startup =>
    refine h.shrink (List.Sublist.refl _) rfl fun P hP j l' job hj hjob => ?_
    rcases append_cases hj with hj | ⟨-, rfl⟩
    · exact hP j l' job hj hjob
    · simp at hjob
  | pass i l pc p k hl =>
    exact h.shrink (List.Sublist.refl _) rfl (hput i l { l with pc := pc } hl (fun _ hj => hj) _ rfl)
  | lock i l pc hl =>
    exact h.shrink (List.Sublist.refl _) rfl (hput i l { l with pc := pc } hl (fun _ hj => hj) _ rfl)
  | unlock i l pc hl =>
    exact h.shrink (List.Sublist.refl _) rfl (hput i l { l with pc := pc } hl (fun _ hj => hj) _ rfl)
  | popNull i l rest hl pc queue =>
    refine h.shrink ?_ rfl (hput i l { l with pc := .outer } hl (fun _ hj => hj) _ rfl)
    rw [queue]
    exact List.Sublist.refl _
  | pop i l job rest hl pc queue =>
    have hqueue := h.queue
    rw [queue, Job.tickets_cons_some, List.pairwise_cons] at hqueue
    have hmem : ∀ b ∈ Job.tickets rest, b ∈ Job.tickets s.queue := by
      intro b hb
      rw [queue, Job.tickets_cons_some]
      exact List.mem_cons_of_mem _ hb
    constructor
    · exact hqueue.2
    · exact fun b hb => h.past b (hmem b hb)
    · intro b hb
      refine (h.hand b (hmem b hb)).set rfl fun job' hjob => ?_
      obtain rfl := Option.some.inj hjob
      exact hqueue.1 b hb
    · refine h.turn.set rfl fun job' hjob d hd _ => ?_
      obtain rfl := Option.some.inj hjob
      apply h.past job.ticket _ d hd
      rw [queue, Job.tickets_cons_some]
      exact List.mem_cons_self
  | leave i l hl =>
    exact h.shrink (List.Sublist.refl _) rfl (hput i l ⟨.outer, none⟩ hl (by simp) _ rfl)
  | dispatch i l k job t hl pc next set =>
    have hhands := hput i l ⟨.dispatching k, none⟩ hl (by simp)
      { (s.put i ⟨.dispatching k, none⟩).setThread k t with
        dispatched := s.dispatched ++ [⟨i, k, job.ticket⟩] } rfl
    constructor
    · exact h.queue
    · intro b hb d hd
      rcases List.mem_append.mp hd with hd | hd
      · exact h.past b hb d hd
      · rw [List.mem_singleton.mp hd]
        exact h.hand b hb i l job hl next
    · exact fun b hb => hhands _ (h.hand b hb)
    · intro j l' job' hj hjob' d hd hdj
      rcases List.mem_append.mp hd with hd | hd
      · exact hhands _ h.turn j l' job' hj hjob' d hd hdj
      · rw [List.mem_singleton.mp hd] at hdj
        rcases set_cases hj with ⟨-, rfl⟩ | ⟨hne, -⟩
        · simp at hjob'
        · exact absurd hdj.symm hne
  | «return» i l k t hl =>
    exact h.shrink (List.Sublist.refl _) rfl (hput i l { l with pc := .inner } hl (fun _ hj => hj) _ rfl)

lemma ordered (h : (system (σ := σ) (π := π)).Reachable s) : s.Ordered := by
  refine h.induct ?_ fun _ _ _ hr ho hs => ho.moves hr (step_cases hs).2
  constructor <;> simp [system, init, Hands]

def Started (s : TaskScheduler σ π) (ticket : ℕ) : Prop :=
  ∃ k n, (ticket, n) ∈ (s.threadPool k).stagesRun

/-- `ticket` left the queue before the task `later` was dispatched. -/
def Left (s : TaskScheduler σ π) (ticket later : ℕ) : Prop :=
  ticket ∈ s.dispatched.map Dispatch.ticket ∨ ticket ∈ s.discarded ∨ ticket ∈ s.removed ∨
    ∃ (i : ℕ) (l : Startup σ π), s.startups[i]? = some l ∧ l.nextTask.map Job.ticket = some ticket ∧
      ∀ d ∈ s.dispatched, d.ticket = later → d.loop ≠ i

lemma sum_pos_iff {l : List (Startup σ π)} {ticket : ℕ}
    (h : (l.map fun l => Job.amount ticket l.nextTask).sum ≠ 0) :
    ∃ (i : ℕ) (x : Startup σ π), l[i]? = some x ∧ x.nextTask.map Job.ticket = some ticket := by
  obtain ⟨n, hn, hne⟩ := List.exists_mem_ne_zero_of_sum_ne_zero h
  obtain ⟨x, hx, rfl⟩ := List.mem_map.mp hn
  obtain ⟨i, hi⟩ := List.mem_iff_getElem?.mp hx
  refine ⟨i, x, hi, ?_⟩
  by_contra hc
  simp [Job.amount, hc] at hne

lemma started_left (h : (system (σ := σ) (π := π)).Reachable s) {ticket later : ℕ} (hlt : ticket < later)
    {t : Task σ π} (hqueued : s.queued[ticket]? = some (some t)) (hstarted : s.Started later) :
    s.Left ticket later := by
  obtain ⟨k, n, hn⟩ := hstarted
  obtain ⟨d, hd, -, hdt⟩ := (given h).stagesRun k later n hn
  have ho := ordered h
  have hqueue : (Job.tickets s.queue).count ticket = 0 := by
    refine List.count_eq_zero.mpr fun hmem => ?_
    have hpast := ho.past ticket hmem d hd
    omega
  have howners := owners_eq ticket h
  have haccepted : s.accepted ticket = 1 := by simp [accepted, hqueued]
  simp only [owners, hqueue, haccepted] at howners
  by_cases hdispatched : ticket ∈ s.dispatched.map Dispatch.ticket
  · exact .inl hdispatched
  by_cases hdiscarded : ticket ∈ s.discarded
  · exact .inr (.inl hdiscarded)
  by_cases hremoved : ticket ∈ s.removed
  · exact .inr (.inr (.inl hremoved))
  rw [List.count_eq_zero.mpr hdispatched, List.count_eq_zero.mpr hdiscarded,
    List.count_eq_zero.mpr hremoved] at howners
  obtain ⟨i, l, hl, hnext⟩ := sum_pos_iff (by omega : (s.startups.map fun l => Job.amount ticket l.nextTask).sum ≠ 0)
  refine .inr (.inr (.inr ⟨i, l, hl, hnext, fun e he het hloop => ?_⟩))
  obtain ⟨job, hjob, hticket⟩ := Option.map_eq_some_iff.mp hnext
  have hturn := ho.turn i l job hl hjob e he hloop
  omega

end TaskScheduler

def TaskOf (m : Memory σ π) (a : Addr) (t : Option (Task σ π)) : Prop :=
  ∃ v, m.vertex a = some v ∧ t.map Task.uuid = v.task.map Task.uuid

/-- An order with no edge back has the beginning of each edge before its end. -/
lemma before_of_connected {g : DAG} {m : Memory σ π} {order : List Addr} (hacyclic : g.Acyclic m)
    (hpairwise : order.Pairwise fun a b => ¬ g.Connected m b a) {p q : ℕ} {u v : Addr}
    (hp : order[p]? = some u) (hq : order[q]? = some v) (huv : g.Connected m u v) : p < q := by
  obtain ⟨hp', rfl⟩ := List.getElem?_eq_some_iff.mp hp
  obtain ⟨hq', rfl⟩ := List.getElem?_eq_some_iff.mp hq
  rcases lt_trichotomy p q with hlt | rfl | hgt
  · exact hlt
  · exact absurd (Relation.TransGen.single huv) (hacyclic _)
  · exact absurd huv (List.pairwise_iff_getElem.mp hpairwise q p hq' hp' hgt)

section Dispatch

variable [TaskStage σ] [TaskCallbackPlugin π] {g : DAG} {m : Memory σ π} {n : ℕ} {out : Batches σ π}
  {tasks : TaskQueue σ π}

lemma in_order (h : Layering g m n out tasks) :
    ∃ order : List Addr, order.Perm g.graph ∧ List.Forall₂ (TaskOf m) order tasks ∧
      order.Pairwise fun a b => ¬ g.Connected m b a := by
  let layers := (List.range n).map (Library.Layers.layer g.graph m.targets)
  have hunique : ∀ a j k, a ∈ Library.Layers.layer g.graph m.targets j →
      a ∈ Library.Layers.layer g.graph m.targets k → j = k := by
    intro a j k hj hk
    rw [Library.Layers.mem_layer] at hj hk
    exact hj.2.unique hk.2
  refine ⟨layers.flatten, h.once, ?_, ?_⟩
  · have hbatches : List.Forall₂ (BatchClone m) layers.flatten out.flatten := List.rel_flatten h.batches
    have htasks := h.tasks_eq
    rw [← List.forall₂_eq_eq_eq, List.forall₂_map_left_iff, List.forall₂_map_right_iff] at htasks
    refine List.forall₂_iff_get.mpr ⟨?_, fun p hp hp' => ?_⟩
    · rw [hbatches.length_eq, htasks.length_eq]
    · have hp'' : p < out.flatten.length := hbatches.length_eq ▸ hp
      obtain ⟨v, hv, hclone⟩ := hbatches.get hp hp''
      refine ⟨v, hv, (htasks.get hp' hp'').trans ?_⟩
      rw [hclone]
      cases htask : v.task <;> simp [DAGVertex.clone, htask]
  · refine List.pairwise_flatten.mpr ⟨?_, ?_⟩
    · intro layer hlayer
      obtain ⟨i, -, rfl⟩ := List.mem_map.mp hlayer
      refine List.pairwise_of_forall_mem_list fun a ha b hb hba => ?_
      obtain ⟨j, -, k, -, hj, hk, hlt⟩ := h.later b a hba
      have hji := hunique b j i hj hb
      have hki := hunique a k i hk ha
      omega
    · refine List.pairwise_map.mpr (List.pairwise_lt_range.imp fun {i i'} hlt a ha b hb hba => ?_)
      obtain ⟨j, -, k, -, hj, hk, hjk⟩ := h.later b a hba
      have hji := hunique b j i' hj hb
      have hki := hunique a k i hk ha
      omega

/-- `process_dag` queues the tasks of an acyclic graph along its edges, so that, whatever the scheduler
was and is doing, no stage of the task at the end of an edge starts before the task at its beginning
left the queue. -/
theorem dispatched_along_edges (hg : g.Clonable m) (hacyclic : g.Acyclic m)
    (htasks : ∀ a ∈ g.graph, ∀ v, m.vertex a = some v → v.task.isSome) (out : Batches σ π) :
    ∃ out' tasks m' order, Returns (processDag false g.graph.length g out []) m (true, out', tasks) m' ∧
      order.Perm g.graph ∧ List.Forall₂ (TaskOf m) order tasks ∧
      (∀ (p q : ℕ) (u v : Addr), order[p]? = some u → order[q]? = some v → g.Connected m u v → p < q) ∧
      ∀ s : TaskScheduler σ π, TaskScheduler.system.Reachable s →
        ∀ tickets : List ℕ, tickets.Pairwise (· < ·) →
          tickets.map (fun ticket => s.queued[ticket]?) = tasks.map some →
          ∀ (p q : ℕ) (u v : Addr) (a b : ℕ), order[p]? = some u → order[q]? = some v → tickets[p]? = some a →
            tickets[q]? = some b → g.Connected m u v → s.Started b → s.Left a b := by
  obtain ⟨n, tasks, out', m', hr, -, h⟩ := processDag_acyclic hg hacyclic le_rfl out []
  obtain ⟨order, hperm, hall, hpairwise⟩ := in_order h
  refine ⟨out', tasks, m', order, hr, hperm, hall, fun p q u v => before_of_connected hacyclic hpairwise, ?_⟩
  intro s hs tickets hlt hqueued p q u v a b hp hq ha hb huv hstarted
  have hpq := before_of_connected hacyclic hpairwise hp hq huv
  obtain ⟨hp', rfl⟩ := List.getElem?_eq_some_iff.mp hp
  obtain ⟨hq', rfl⟩ := List.getElem?_eq_some_iff.mp hq
  obtain ⟨ha', rfl⟩ := List.getElem?_eq_some_iff.mp ha
  obtain ⟨hb', rfl⟩ := List.getElem?_eq_some_iff.mp hb
  have hplen : p < tasks.length := hall.length_eq ▸ hp'
  have htask : s.queued[tickets[p]]? = some tasks[p] := by
    have hget := congrArg (fun l => l[p]?) hqueued
    simpa [ha', hplen] using hget
  obtain ⟨t, ht⟩ := Option.isSome_iff_exists.mp (h.tasks_isSome htasks tasks[p] (List.getElem_mem hplen))
  rw [ht] at htask
  exact TaskScheduler.started_left hs (List.pairwise_iff_getElem.mp hlt p q ha' hb' hpq) htask hstarted

end Dispatch

/-! The first task still runs when a second call of `startup` dispatches its successor. -/

namespace Sample

lemma acyclic : Graphs.Sample.dag.Acyclic Graphs.Sample.memory := by
  have hedge : ∀ a b, Graphs.Sample.dag.Connected Graphs.Sample.memory a b → a = 0 ∧ b = 1 := by
    have hall : ∀ a ∈ Graphs.Sample.dag.graph, ∀ b ∈ Graphs.Sample.dag.graph,
        b ∈ Graphs.Sample.memory.targets a → a = 0 ∧ b = 1 := by decide
    rintro a b ⟨ha, hb, hab⟩
    exact hall a ha b hb hab
  intro a h
  obtain ⟨b, hab, hrest⟩ := Relation.TransGen.head'_iff.mp h
  obtain ⟨rfl, rfl⟩ := hedge a b hab
  rcases Relation.ReflTransGen.cases_head hrest with h | ⟨c, hbc, -⟩
  · exact absurd h (by decide)
  · exact absurd (hedge 1 c hbc).1 (by decide)

def overtake : List Client :=
  [.startup] ++ steps 16 (.loop 0) ++ steps 2 (.work first 0 true) ++ steps 1 (.loop 0) ++
    steps 2 (.work first 0 true) ++ [.shutdown, .storeKill] ++ steps 2 (.loop 0) ++ [.startup] ++
    steps 17 (.loop 1) ++ steps 6 (.work second 0 true)

end Sample

theorem dispatched_along_edges_fails :
    ∃ out tasks m' s, Returns (processDag false 2 Graphs.Sample.dag [] []) Graphs.Sample.memory
        (true, out, tasks) m' ∧
      Graphs.Sample.dag.Acyclic Graphs.Sample.memory ∧
      Graphs.Sample.dag.Connected Graphs.Sample.memory 0 1 ∧
      List.Forall₂ (TaskOf Graphs.Sample.memory) [0, 1] tasks ∧
      TaskScheduler.system.exec TaskScheduler.init
        (tasks.map TaskScheduler.Action.queueTask ++ Sample.overtake) = some s ∧
      s.Started 1 ∧ s.completed 0 = 0 := by
  obtain ⟨-, tasks, out, m', hr, -, -⟩ :=
    processDag_acyclic Graphs.Sample.wellFormed.toClonable Sample.acyclic (le_refl 2) [] []
  have hrun : (match (processDag false 2 Graphs.Sample.dag [] []).run Graphs.Sample.memory with
      | .ok ((_, _, tasks), _) => decide (tasks.map (Option.map Task.uuid) =
          [some Graphs.Sample.task₁.uuid, some Graphs.Sample.task₂.uuid] ∧
        (TaskScheduler.system.exec TaskScheduler.init
          (tasks.map TaskScheduler.Action.queueTask ++ Sample.overtake)).any fun s =>
            (1, 0) ∈ (s.threadPool 1).stagesRun ∧ s.completed 0 = 0)
      | .error _ => false) = true := by decide +kernel
  rw [Returns] at hr
  simp only [hr, decide_eq_true_eq] at hrun
  obtain ⟨hids, hany⟩ := hrun
  obtain ⟨s, hs, hp⟩ := System.exec_any hany
  obtain ⟨hstage, hcompleted⟩ := of_decide_eq_true hp
  refine ⟨out, tasks, m', s, hr, Sample.acyclic, ?_, ?_, hs, ⟨1, 0, hstage⟩, hcompleted⟩
  · exact ⟨by decide, by decide, by decide⟩
  · obtain ⟨t₁, t₂, rfl⟩ : ∃ t₁ t₂, tasks = [t₁, t₂] := by
      have hlen : tasks.length = 2 := by simpa using congrArg List.length hids
      exact List.length_eq_two.mp hlen
    obtain ⟨h₁, hrest⟩ := List.cons_eq_cons.mp hids
    exact .cons ⟨_, rfl, h₁⟩ (.cons ⟨_, rfl, (List.cons_eq_cons.mp hrest).1⟩ .nil)

theorem dispatched_along_edges_sample :
    ∃ out' tasks m' order, Returns (processDag false 2 Graphs.Sample.dag [] []) Graphs.Sample.memory
        (true, out', tasks) m' ∧
      order.Perm [0, 1] ∧ List.Forall₂ (TaskOf Graphs.Sample.memory) order tasks ∧
      (∀ (p q : ℕ) (u v : Addr), order[p]? = some u → order[q]? = some v →
        Graphs.Sample.dag.Connected Graphs.Sample.memory u v → p < q) ∧
      ∀ s : TaskScheduler Unit Unit, TaskScheduler.system.Reachable s →
        ∀ tickets : List ℕ, tickets.Pairwise (· < ·) →
          tickets.map (fun ticket => s.queued[ticket]?) = tasks.map some →
          ∀ (p q : ℕ) (u v : Addr) (a b : ℕ), order[p]? = some u → order[q]? = some v →
            tickets[p]? = some a → tickets[q]? = some b →
            Graphs.Sample.dag.Connected Graphs.Sample.memory u v → s.Started b → s.Left a b :=
  dispatched_along_edges Graphs.Sample.wellFormed.toClonable Sample.acyclic (by decide) []

end DagScheduler.Scheduling

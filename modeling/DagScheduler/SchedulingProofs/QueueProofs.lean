import DagScheduler.Scheduling.ConcurrentTaskQueue
import DagScheduler.SchedulingProofs.OrderProofs

/-! What was pushed leaves the queue once: through a pop, in the order it came, through `clear`, or
through a removal of its own. -/

namespace DagScheduler.Scheduling

open Graphs Library.Compaction Library.Transitions

variable {σ π : Type}

namespace Job

lemma named_iff {u : UUID} {job : Job σ π} : job.Named u = true ↔ job.task.uuid = u := by
  rw [Named, beq_iff_eq, UUID.asString_injective.eq_iff]

lemma exists_jobs {l : List (Option (Job σ π))} (h : none ∉ l) : ∃ jobs : List (Job σ π), l = jobs.map some := by
  induction l with
  | nil => exact ⟨[], rfl⟩
  | cons p l ih =>
    obtain ⟨hp, hl⟩ : none ≠ p ∧ none ∉ l := by simpa using h
    obtain ⟨job, rfl⟩ := Option.ne_none_iff_exists'.mp (Ne.symm hp)
    obtain ⟨jobs, rfl⟩ := ih hl
    exact ⟨job :: jobs, rfl⟩

end Job

namespace ConcurrentTaskQueue

def Call.isPop : Call σ π → Bool
  | .tryPop _ | .waitAndPop | .waitForAndPop _ => true
  | _ => false

inductive Acts (ticket : ℕ) : ConcurrentTaskQueue σ π → Call σ π → Reply σ π → ConcurrentTaskQueue σ π → Prop
  | push (q : ConcurrentTaskQueue σ π) (t : Option (Task σ π)) : Acts ticket q (.push t) .done (q.push (t.map fun t => ⟨ticket, t⟩))
  | quiet (q : ConcurrentTaskQueue σ π) (call : Call σ π) (reply : Reply σ π) (pushes : call.pushes = [])
      (returned : reply.returned = []) : Acts ticket q call reply q
  | pop (call : Call σ π) (pops : call.isPop = true) (pushes : call.pushes = []) (v : Option (Job σ π)) (rest : List (Option (Job σ π))) :
      Acts ticket ⟨v :: rest⟩ call (.popped true v) ⟨rest⟩
  | clear (q : ConcurrentTaskQueue σ π) : Acts ticket q .clear .done ⟨[]⟩
  | remove (u : UUID) (r r' : Option (Job σ π)) (jobs : List (Job σ π)) :
      Acts ticket ⟨jobs.map some⟩ (.removeTaskFromQueue u r) (.removed r')
        ⟨(jobs.filter fun job => !job.Named u).map some⟩

variable {q q' : ConcurrentTaskQueue σ π} {u : UUID} {r : Option (Job σ π)}

lemma removeTaskFromQueue_eq (u : UUID) (r : Option (Job σ π)) (jobs : List (Job σ π)) :
    (⟨jobs.map some⟩ : ConcurrentTaskQueue σ π).removeTaskFromQueue u r =
      some (⟨(jobs.filter fun job => !job.Named u).map some⟩, ((jobs.filter (Job.Named u)).getLast?).or r) := by
  unfold removeTaskFromQueue
  cases jobs with
  | nil => rfl
  | cons job jobs =>
    rw [if_neg (by simp), removeIf_eq, Option.map_some, take_layout]

lemma removeTaskFromQueue_none (hnone : none ∈ q.queue) : q.removeTaskFromQueue u r = none := by
  unfold removeTaskFromQueue
  rw [if_neg (by simp [List.ne_nil_of_mem hnone]), removeIf_none _ hnone, Option.map_none]

variable {call : Call σ π} {reply : Reply σ π} {ticket : ℕ} {s s' : Shared σ π}

lemma Call.run_acts (h : call.run ticket q = .returns reply q') : Acts ticket q call reply q' := by
  obtain ⟨l⟩ := q
  cases call with
  | push t =>
    obtain ⟨rfl, rfl⟩ := Outcome.returns.inj h
    exact .push _ t
  | size | empty =>
    obtain ⟨rfl, rfl⟩ := Outcome.returns.inj h
    exact .quiet _ _ _ rfl rfl
  | clear =>
    obtain ⟨rfl, rfl⟩ := Outcome.returns.inj h
    exact .clear _
  | tryPop v | waitForAndPop v =>
    cases l with
    | nil =>
      obtain ⟨rfl, rfl⟩ := Outcome.returns.inj h
      exact .quiet _ _ _ rfl rfl
    | cons front rest =>
      obtain ⟨rfl, rfl⟩ := Outcome.returns.inj h
      exact .pop _ rfl rfl front rest
  | waitAndPop =>
    cases l with
    | nil => simp [Call.run, ConcurrentTaskQueue.waitAndPop] at h
    | cons front rest =>
      obtain ⟨rfl, rfl⟩ := Outcome.returns.inj h
      exact .pop _ rfl rfl front rest
  | removeTaskFromQueue u r =>
    by_cases hnone : none ∈ l
    · rw [Call.run, removeTaskFromQueue_none hnone] at h
      simp at h
    · obtain ⟨jobs, rfl⟩ := Job.exists_jobs hnone
      rw [Call.run, removeTaskFromQueue_eq] at h
      obtain ⟨rfl, rfl⟩ := Outcome.returns.inj h
      exact .remove u r _ jobs

lemma Call.run_undefined (h : call.run ticket q = .undefined) : none ∈ q.queue := by
  obtain ⟨l⟩ := q
  by_contra hnone
  obtain ⟨jobs, rfl⟩ := Job.exists_jobs hnone
  cases call with
  | removeTaskFromQueue u r => simp [Call.run, removeTaskFromQueue_eq] at h
  | waitAndPop => cases jobs <;> simp [Call.run, ConcurrentTaskQueue.waitAndPop] at h
  | _ => simp [Call.run] at h

/-- What was pushed, where it is, and how it left. -/
structure Fifo (s : Shared σ π) : Prop where
  order : (Job.tickets s.returned ++ Job.tickets s.queue.queue).Pairwise (· < ·)
  tasks : ∀ job, some job ∈ s.returned ++ s.queue.queue → s.pushed[job.ticket]? = some (some job.task)
  once : (s.exits.map Prod.snd).Nodup
  gone : ∀ e ∈ s.exits, e.2 < s.pushed.length ∧ e.2 ∉ Job.tickets s.queue.queue
  popped : ∀ n ∈ Job.tickets s.returned, ∃ call : Call σ π, call.isPop = true ∧ (call, n) ∈ s.exits
  ways : ∀ n t, s.pushed[n]? = some (some t) → n ∈ Job.tickets s.queue.queue ∨ n ∈ Job.tickets s.returned ∨
    (Call.clear, n) ∈ s.exits ∨ ∃ r, (Call.removeTaskFromQueue t.uuid r, n) ∈ s.exits
  nulls : none ∈ s.queue.queue → none ∈ s.pushed

lemma Fifo.lt (h : Fifo s) {n : ℕ} (hn : n ∈ Job.tickets s.returned ++ Job.tickets s.queue.queue) :
    n < s.pushed.length := by
  rw [← Job.tickets_append] at hn
  obtain ⟨job, hjob, rfl⟩ := Job.mem_tickets.mp hn
  exact (List.getElem?_eq_some_iff.mp (h.tasks job hjob)).1

lemma Fifo.start : Fifo (system (σ := σ) (π := π)).start := by
  constructor <;> simp [system, Job.tickets]

lemma left_of_subset (h : Job.tickets q.queue ⊆ Job.tickets q'.queue) : left q q' = [] := by
  rw [left, List.filter_eq_nil_iff]
  intro n hn
  simpa using h hn

lemma mem_left {n : ℕ} : n ∈ left q q' ↔ n ∈ Job.tickets q.queue ∧ n ∉ Job.tickets q'.queue := by
  simp [left]

lemma Fifo.exits (h : Fifo s) (call : Call σ π) (q' : ConcurrentTaskQueue σ π)
    (hsub : q'.queue.Sublist s.queue.queue) :
    ((s.exits ++ (left s.queue q').map (call, ·)).map Prod.snd).Nodup ∧
      ∀ e ∈ s.exits ++ (left s.queue q').map (call, ·), e.2 < s.pushed.length ∧ e.2 ∉ Job.tickets q'.queue := by
  have hnodup : (Job.tickets s.queue.queue).Nodup := (List.pairwise_append.mp h.order).2.1.imp Nat.ne_of_lt
  have hsnd : ((left s.queue q').map fun n => (call, n)).map Prod.snd = left s.queue q' := by simp
  refine ⟨?_, ?_⟩
  · rw [List.map_append, hsnd, List.nodup_append]
    refine ⟨h.once, hnodup.filter _, ?_⟩
    rintro n hn _ hn' rfl
    obtain ⟨e, he, rfl⟩ := List.mem_map.mp hn
    exact (h.gone e he).2 (mem_left.mp hn').1
  · intro e he
    rcases List.mem_append.mp he with he | he
    · exact ⟨(h.gone e he).1, fun hmem => (h.gone e he).2 ((Job.tickets_sublist hsub).subset hmem)⟩
    · obtain ⟨n, hn, rfl⟩ := List.mem_map.mp he
      obtain ⟨hq, hq'⟩ := mem_left.mp hn
      exact ⟨h.lt (List.mem_append_right _ hq), hq'⟩

lemma Fifo.drop (h : Fifo s) (call : Call σ π) (q' : ConcurrentTaskQueue σ π)
    (hsub : q'.queue.Sublist s.queue.queue)
    (hways : ∀ job : Job σ π, some job ∈ s.queue.queue → job.ticket ∉ Job.tickets q'.queue →
      call = .clear ∨ ∃ r, call = .removeTaskFromQueue job.task.uuid r) :
    Fifo { s with queue := q', exits := s.exits ++ (left s.queue q').map (call, ·) } := by
  obtain ⟨honce, hgone⟩ := h.exits call q' hsub
  refine ⟨?_, ?_, honce, hgone, ?_, ?_, ?_⟩
  · exact h.order.sublist ((Job.tickets_sublist hsub).append_left _)
  · intro job hjob
    exact h.tasks job ((hsub.append_left _).subset hjob)
  · intro n hn
    obtain ⟨call', hpop, hmem⟩ := h.popped n hn
    exact ⟨call', hpop, List.mem_append_left _ hmem⟩
  · intro n t hn
    rcases h.ways n t hn with hq | hr | hc | ⟨r, hr⟩
    · by_cases hq' : n ∈ Job.tickets q'.queue
      · exact .inl hq'
      · obtain ⟨job, hjob, rfl⟩ := Job.mem_tickets.mp hq
        have hmem : (call, job.ticket) ∈ s.exits ++ (left s.queue q').map (call, ·) :=
          List.mem_append_right _ (List.mem_map_of_mem (mem_left.mpr ⟨hq, hq'⟩))
        have htask : t = job.task := by
          have heq := (h.tasks job (List.mem_append_right _ hjob)).symm.trans hn
          exact (Option.some.inj (Option.some.inj heq)).symm
        rcases hways job hjob hq' with rfl | ⟨r, rfl⟩
        · exact .inr (.inr (.inl hmem))
        · exact .inr (.inr (.inr ⟨r, htask ▸ hmem⟩))
    · exact .inr (.inl hr)
    · exact .inr (.inr (.inl (List.mem_append_left _ hc)))
    · exact .inr (.inr (.inr ⟨r, List.mem_append_left _ hr⟩))
  · exact fun hnone => h.nulls (hsub.subset hnone)

lemma Fifo.push (h : Fifo s) (t : Option (Task σ π)) :
    Fifo { s with
      queue := s.queue.push (t.map fun t => ⟨s.pushed.length, t⟩)
      pushed := s.pushed ++ [t] } := by
  have hold : ∀ {n x}, s.pushed[n]? = some x → (s.pushed ++ [t])[n]? = some x := fun hx => by
    rw [List.getElem?_append_left (List.getElem?_eq_some_iff.mp hx).1, hx]
  have hnew : ∀ {n}, n ∈ Job.tickets [t.map fun t => (⟨s.pushed.length, t⟩ : Job σ π)] → n = s.pushed.length := by
    cases t <;> simp [Job.tickets]
  refine ⟨?_, ?_, h.once, ?_, h.popped, ?_, ?_⟩
  · simp only [ConcurrentTaskQueue.push, Job.tickets_append, ← List.append_assoc]
    rw [List.pairwise_append]
    refine ⟨h.order, ?_, ?_⟩
    · cases t <;> simp [Job.tickets]
    · intro a ha b hb
      rw [hnew hb]
      exact h.lt ha
  · intro job hjob
    simp only [ConcurrentTaskQueue.push, ← List.append_assoc] at hjob
    rcases List.mem_append.mp hjob with hjob | hjob
    · exact hold (h.tasks job hjob)
    · obtain ⟨t', rfl, rfl⟩ := Option.map_eq_some_iff.mp (List.mem_singleton.mp hjob).symm
      simp
  · intro e he
    obtain ⟨hlt, hmem⟩ := h.gone e he
    refine ⟨by rw [List.length_append]; omega, ?_⟩
    simp only [ConcurrentTaskQueue.push, Job.tickets_append, List.mem_append, not_or]
    exact ⟨hmem, fun hn => absurd (hnew hn) (Nat.ne_of_lt hlt)⟩
  · intro n t' hn
    by_cases hlt : n < s.pushed.length
    · rw [List.getElem?_append_left hlt] at hn
      refine (h.ways n t' hn).imp_left fun hq => ?_
      simp only [ConcurrentTaskQueue.push, Job.tickets_append]
      exact List.mem_append_left _ hq
    · have hlen := (List.getElem?_eq_some_iff.mp hn).1
      rw [List.length_append, List.length_singleton] at hlen
      obtain rfl : n = s.pushed.length := by omega
      have ht : t = some t' := by simpa using hn
      refine .inl ?_
      simp [ConcurrentTaskQueue.push, ht]
  · intro hnone
    rcases List.mem_append.mp hnone with hnone | hnone
    · exact List.mem_append_left _ (h.nulls hnone)
    · have ht : t = none := by simpa [eq_comm] using hnone
      simp [ht]

lemma Fifo.pop (h : Fifo s) (call : Call σ π) (hpop : call.isPop = true) (v : Option (Job σ π))
    (rest : List (Option (Job σ π))) (hq : s.queue.queue = v :: rest) :
    Fifo { s with
      queue := ⟨rest⟩
      returned := s.returned ++ [v]
      exits := s.exits ++ (left s.queue ⟨rest⟩).map (call, ·) } := by
  have hsub : rest.Sublist s.queue.queue := hq ▸ List.sublist_cons_self v rest
  have hsplit : Job.tickets s.queue.queue = Job.tickets [v] ++ Job.tickets rest := by
    rw [hq, ← Job.tickets_append, List.singleton_append]
  have hfirst : ∀ n ∈ Job.tickets [v], n ∉ Job.tickets rest := by
    intro n hn hmem
    have hpair := (List.pairwise_append.mp h.order).2.1
    rw [hsplit] at hpair
    exact absurd ((List.pairwise_append.mp hpair).2.2 n hn n hmem) (Nat.lt_irrefl n)
  obtain ⟨honce, hgone⟩ := h.exits call ⟨rest⟩ hsub
  refine ⟨?_, ?_, honce, hgone, ?_, ?_, ?_⟩
  · rw [Job.tickets_append, List.append_assoc, ← hsplit]
    exact h.order
  · intro job hjob
    apply h.tasks job
    rw [hq]
    simpa [List.append_assoc] using hjob
  · intro n hn
    rw [Job.tickets_append] at hn
    rcases List.mem_append.mp hn with hn | hn
    · obtain ⟨call', hpop', hmem⟩ := h.popped n hn
      exact ⟨call', hpop', List.mem_append_left _ hmem⟩
    · refine ⟨call, hpop, List.mem_append_right _ (List.mem_map_of_mem (mem_left.mpr ⟨?_, hfirst n hn⟩))⟩
      rw [hsplit]
      exact List.mem_append_left _ hn
  · intro n t hn
    rcases h.ways n t hn with hmem | hr | hc | ⟨r, hr⟩
    · rw [hsplit] at hmem
      rcases List.mem_append.mp hmem with hmem | hmem
      · refine .inr (.inl ?_)
        rw [Job.tickets_append]
        exact List.mem_append_right _ hmem
      · exact .inl hmem
    · refine .inr (.inl ?_)
      rw [Job.tickets_append]
      exact List.mem_append_left _ hr
    · exact .inr (.inr (.inl (List.mem_append_left _ hc)))
    · exact .inr (.inr (.inr ⟨r, List.mem_append_left _ hr⟩))
  · exact fun hnone => h.nulls (hsub.subset hnone)

lemma Shared.step_cases (h : s.step call = some s') : (none ∈ s.queue.queue ∧ s' = { s with fault := some .undefined }) ∨
    ∃ reply q, Acts s.pushed.length s.queue call reply q ∧ s' = { s with
      queue := q
      pushed := s.pushed ++ call.pushes
      returned := s.returned ++ reply.returned
      exits := s.exits ++ (left s.queue q).map (call, ·) } := by
  simp only [Shared.step, Option.ite_none_left_eq_some] at h
  obtain ⟨-, h⟩ := h
  cases hrun : call.run s.pushed.length s.queue with
  | waits => simp [hrun] at h
  | undefined =>
    simp only [hrun, Option.some.injEq] at h
    exact .inl ⟨Call.run_undefined hrun, h.symm⟩
  | returns reply q =>
    simp only [hrun, Option.some.injEq] at h
    exact .inr ⟨reply, q, Call.run_acts hrun, h.symm⟩

lemma Fifo.step (h : Fifo s) (hs : s.step call = some s') : Fifo s' := by
  rcases Shared.step_cases hs with ⟨-, rfl⟩ | ⟨reply, q, hacts, rfl⟩
  · exact ⟨h.order, h.tasks, h.once, h.gone, h.popped, h.ways, h.nulls⟩
  obtain ⟨q₀, fault, pushed, returned, exits⟩ := s
  cases hacts with
  | push _ t =>
    have hleft : left q₀ (q₀.push (t.map fun t => ⟨pushed.length, t⟩)) = [] :=
      left_of_subset fun n hn => by simp [ConcurrentTaskQueue.push, hn]
    simpa [hleft, Reply.returned, Call.pushes] using h.push t
  | quiet _ _ _ hpushes hreturned =>
    have hleft : left q₀ q₀ = [] := left_of_subset fun _ hn => hn
    simpa [hleft, hpushes, hreturned] using h
  | pop _ hpop hpushes v rest =>
    simpa [hpushes, Reply.returned] using h.pop call hpop v rest rfl
  | clear =>
    simpa [Reply.returned, Call.pushes] using h.drop .clear ⟨[]⟩ (List.nil_sublist _) fun _ _ _ => .inl rfl
  | remove u r r' jobs =>
    have hsub : ((jobs.filter fun job => !job.Named u).map some).Sublist (jobs.map some) :=
      List.filter_sublist.map some
    have hnamed : ∀ job : Job σ π, some job ∈ jobs.map some →
        job.ticket ∉ Job.tickets ((jobs.filter fun job => !job.Named u).map some) → u = job.task.uuid := by
      intro job hjob hgone
      by_contra hne
      have hnot : ¬ job.Named u = true := fun hn => hne (Job.named_iff.mp hn).symm
      refine hgone (Job.mem_tickets.mpr ⟨job, List.mem_map_of_mem (List.mem_filter.mpr ⟨?_, ?_⟩), rfl⟩)
      · simpa using hjob
      · simpa using hnot
    simpa [Reply.returned, Call.pushes] using
      h.drop (.removeTaskFromQueue u r) ⟨(jobs.filter fun job => !job.Named u).map some⟩ hsub
        fun job hjob hgone => .inr ⟨r, hnamed job hjob hgone ▸ rfl⟩

lemma fifo (h : (system (σ := σ) (π := π)).Reachable s) : Fifo s :=
  h.invariant .start fun _ _ _ hI hs => hI.step hs

lemma fault_null (h : (system (σ := σ) (π := π)).Reachable s) (hf : s.fault.isSome) : none ∈ s.pushed := by
  revert hf
  refine h.induct (I := fun s => s.fault.isSome → none ∈ s.pushed) (by simp [system]) fun s call s' hr ih hs hf => ?_
  rcases Shared.step_cases hs with ⟨hnone, rfl⟩ | ⟨reply, q, -, rfl⟩
  · exact (fifo hr).nulls hnone
  · exact List.mem_append_left _ (ih hf)

lemma popped_false {call : Call σ π} {v' : Option (Job σ π)} (h : call.run ticket q = .returns (.popped false v') q') :
    q' = q ∧ (call = .tryPop v' ∨ call = .waitForAndPop v') := by
  obtain ⟨l⟩ := q
  cases call with
  | tryPop v | waitForAndPop v =>
    cases l with
    | nil =>
      obtain ⟨hreply, rfl⟩ := Outcome.returns.inj h
      obtain ⟨-, rfl⟩ := Reply.popped.inj hreply
      simp
    | cons front rest => simp [Call.run, ConcurrentTaskQueue.tryPop, ConcurrentTaskQueue.waitForAndPop] at h
  | waitAndPop => cases l <;> simp [Call.run, ConcurrentTaskQueue.waitAndPop] at h
  | removeTaskFromQueue u r =>
    simp only [Call.run] at h
    split at h <;> simp at h
  | _ => simp [Call.run] at h

/-- Under any interleaving the queue hands out each task once, first in, first out, and a pop that
failed changes nothing. Only a null pointer that was pushed can lead to undefined behaviour. -/
theorem exactly_once_fifo (h : (system (σ := σ) (π := π)).Reachable s) : Fifo s ∧
    (∀ (call : Call σ π) v' q', call.run s.pushed.length s.queue = .returns (.popped false v') q' →
      q' = s.queue ∧ (call = .tryPop v' ∨ call = .waitForAndPop v')) ∧
    (s.fault.isSome → none ∈ s.pushed) :=
  ⟨fifo h, fun _ _ _ hrun => popped_false hrun, fault_null h⟩

namespace Sample

def mixed : List (Call Unit Unit) :=
  [.push (some Graphs.Sample.task₁), .push (some Graphs.Sample.task₂), .push (some Graphs.Sample.task₁),
    .removeTaskFromQueue Graphs.Sample.task₂.uuid none, .tryPop none, .waitAndPop, .waitForAndPop none]

end Sample

theorem exactly_once_fifo_sample : ∃ s : Shared Unit Unit, system.exec system.start Sample.mixed = some s ∧
    Job.tickets s.returned = [0, 2] ∧ s.exits.map Prod.snd = [1, 0, 2] ∧ Fifo s := by
  have hany : (system.exec system.start Sample.mixed).any (fun s =>
      Job.tickets s.returned = [0, 2] ∧ s.exits.map Prod.snd = [1, 0, 2]) = true := by
    decide +kernel
  obtain ⟨s, hs, hend⟩ := System.exec_any hany
  obtain ⟨hreturned, hexits⟩ := of_decide_eq_true hend
  exact ⟨s, hs, hreturned, hexits, (exactly_once_fifo (System.exec_reachable hs)).1⟩

/-- Each task of the queue is still there after the call, or owned by its output argument. A task
that is neither was destroyed. -/
def HandsOver (q : ConcurrentTaskQueue σ π) (u : UUID) (r : Option (Job σ π)) : Prop :=
  ∃ q' r', q.removeTaskFromQueue u r = some (q', r') ∧
    (Job.tickets q.queue).Subperm (Job.tickets q'.queue ++ Job.tickets [r'])

lemma tickets_removed (u : UUID) (jobs : List (Job σ π)) : (Job.tickets (jobs.map some)).Perm
    (Job.tickets ((jobs.filter fun job => !job.Named u).map some) ++ (jobs.filter (Job.Named u)).map Job.ticket) := by
  have htickets (l : List (Job σ π)) : Job.tickets (l.map some) = l.map Job.ticket := by
    induction l with
    | nil => rfl
    | cons job l ih => rw [List.map_cons, Job.tickets_cons_some, ih, List.map_cons]
  have hsplit := (List.filter_append_perm (Job.Named u) jobs).symm.trans List.perm_append_comm
  rw [htickets, htickets, ← List.map_append]
  exact hsplit.map Job.ticket

/-- Of several tasks with the identifier all but the last are destroyed: each one that is found
overwrites `ret_ptr`. -/
theorem handsOver_iff (u : UUID) (r : Option (Job σ π)) (jobs : List (Job σ π)) :
    HandsOver ⟨jobs.map some⟩ u r ↔ (jobs.filter (Job.Named u)).length ≤ 1 := by
  have hperm := tickets_removed u jobs
  have hremoved := removeTaskFromQueue_eq u r jobs
  constructor
  · rintro ⟨q', r', hr, hsub⟩
    rw [hremoved, Option.some.injEq, Prod.mk.injEq] at hr
    obtain ⟨rfl, rfl⟩ := hr
    have hlength := ((List.subperm_append_left _).mp (hperm.subperm_right.mp hsub)).length_le
    rw [List.length_map] at hlength
    refine hlength.trans ?_
    cases (jobs.filter (Job.Named u)).getLast?.or r with
    | none => exact Nat.zero_le 1
    | some job => exact le_refl 1
  · intro hone
    refine ⟨_, _, hremoved, hperm.subperm_right.mpr ((List.subperm_append_left _).mpr ?_)⟩
    match hnamed : jobs.filter (Job.Named u) with
    | [] => exact List.nil_subperm
    | [job] => exact List.Subperm.refl _
    | job :: next :: rest => simp [hnamed] at hone

namespace Sample

/-- A task and its clone, which has the same identifier. -/
def pair : List (Call Unit Unit) :=
  [.push (some Graphs.Sample.task₁), .push (some Graphs.Sample.task₁.clone)]

end Sample

/-- Two tasks were in the queue; the first is neither there nor with the caller afterwards. -/
theorem handsOver_fails : ∃ s : Shared Unit Unit, system.exec system.start Sample.pair = some s ∧
    ¬ HandsOver s.queue Graphs.Sample.task₁.uuid none := by
  refine ⟨_, rfl, ?_⟩
  rintro ⟨q', r', hr, hsub⟩
  obtain ⟨rfl, rfl⟩ := Prod.mk.inj (Option.some.inj hr)
  exact absurd hsub.length_le (by decide +kernel)

end ConcurrentTaskQueue

namespace TaskScheduler

open ConcurrentTaskQueue (Reply Shared left)

variable {s s' : TaskScheduler σ π} {a : Action σ π}

lemma killTask_null {u : UUID} (h : none ∈ s.queue) : s.killTask u = { s with fault := some .undefined } := by
  rw [killTask, if_pos (List.any_eq_true.mpr ⟨none, h, rfl⟩)]

lemma killTask_removes {u : UUID} {jobs : List (Job σ π)} (h : s.queue = jobs.map some) :
    (s.killTask u).queue = (jobs.filter fun job => !job.Named u).map some := by
  rw [killTask, if_neg (by simp [h])]
  simp only [h, List.filter_map]
  rfl

lemma step_calls (hs : s.step a = some s') : (s'.queue = s.queue ∧ s'.queued = s.queued) ∨
    ∃ (call : ConcurrentTaskQueue.Call σ π) (reply : Reply σ π),
      call.run s.queued.length ⟨s.queue⟩ = .returns reply ⟨s'.queue⟩ ∧ s'.queued = s.queued ++ call.pushes := by
  obtain ⟨halive, hm⟩ := step_cases hs
  have hkill : ∀ u, a = .killTask u → (s'.queue = s.queue ∧ s'.queued = s.queued) ∨
      ∃ (call : ConcurrentTaskQueue.Call σ π) (reply : Reply σ π),
        call.run s.queued.length ⟨s.queue⟩ = .returns reply ⟨s'.queue⟩ ∧ s'.queued = s.queued ++ call.pushes := by
    rintro u rfl
    simp only [step, halive, not_true, if_false, Option.some.injEq] at hs
    subst hs
    by_cases hnone : none ∈ s.queue
    · rw [killTask_null hnone]
      exact .inl ⟨rfl, rfl⟩
    · obtain ⟨jobs, hjobs⟩ := Job.exists_jobs hnone
      refine .inr ⟨.removeTaskFromQueue u none, .removed (((jobs.filter (Job.Named u)).getLast?).or none), ?_, ?_⟩
      · rw [killTask_removes hjobs, hjobs, ConcurrentTaskQueue.Call.run, ConcurrentTaskQueue.removeTaskFromQueue_eq]
      · rw [killTask, if_neg (by simp [hjobs])]
        exact (List.append_nil _).symm
  cases hm with
  | queueTask t => exact .inr ⟨.push t, .done, rfl, rfl⟩
  | null u | unlink u => exact hkill u rfl
  | popNull i l rest hl pc queue =>
    refine .inr ⟨.waitForAndPop none, .popped true none, ?_, (List.append_nil _).symm⟩
    simp [ConcurrentTaskQueue.Call.run, ConcurrentTaskQueue.waitForAndPop, queue]
  | pop i l job rest hl pc queue =>
    refine .inr ⟨.waitForAndPop none, .popped true (some job), ?_, (List.append_nil _).symm⟩
    simp [ConcurrentTaskQueue.Call.run, ConcurrentTaskQueue.waitForAndPop, queue]
  | _ => exact .inl ⟨rfl, rfl⟩

/-- The queue of the scheduler is one that calls on a queue of its own lead to, with the same pushes. -/
theorem queue_reachable (h : (system (σ := σ) (π := π)).Reachable s) :
    ∃ q : Shared σ π, ConcurrentTaskQueue.system.Reachable q ∧ q.fault = none ∧ q.queue = ⟨s.queue⟩ ∧
      q.pushed = s.queued := by
  refine h.invariant (I := fun s : TaskScheduler σ π => ∃ q : Shared σ π, ConcurrentTaskQueue.system.Reachable q ∧
    q.fault = none ∧ q.queue = ⟨s.queue⟩ ∧ q.pushed = s.queued) ⟨_, .start, rfl, rfl, rfl⟩ ?_
  rintro s a s' ⟨q, hq, hfault, hqueue, hpushed⟩ hs
  rcases step_calls hs with ⟨hsame, hqueued⟩ | ⟨call, reply, hrun, hqueued⟩
  · exact ⟨q, hq, hfault, by rw [hqueue, hsame], by rw [hpushed, hqueued]⟩
  · have hstep : q.step call = some { q with
        queue := ⟨s'.queue⟩
        pushed := q.pushed ++ call.pushes
        returned := q.returned ++ reply.returned
        exits := q.exits ++ (left q.queue ⟨s'.queue⟩).map (call, ·) } := by
      simp [Shared.step, hfault, hqueue, hpushed, hrun]
    exact ⟨_, hq.step hstep, hfault, rfl, by rw [hqueued, ← hpushed]⟩

theorem queue_reachable_sample :
    ∃ s : TaskScheduler Unit Unit, system.exec init Sample.handedOver = some s ∧ s.queued.length = 2 ∧
      s.queue.length = 1 ∧ ∃ q : Shared Unit Unit, ConcurrentTaskQueue.system.Reachable q ∧ q.fault = none ∧
        q.queue = ⟨s.queue⟩ ∧ q.pushed = s.queued := by
  have hany : (system.exec (init : TaskScheduler Unit Unit) Sample.handedOver).any (fun s =>
      s.queued.length = 2 ∧ s.queue.length = 1) = true := by decide +kernel
  obtain ⟨s, hs, hp⟩ := System.exec_any hany
  obtain ⟨hqueued, hqueue⟩ := of_decide_eq_true hp
  exact ⟨s, hs, hqueued, hqueue, queue_reachable (System.exec_reachable hs)⟩

end TaskScheduler

end DagScheduler.Scheduling

import DagScheduler.SchedulingProofs.FeedingProofs
import DagScheduler.SchedulingProofs.OrderProofs
import DagScheduler.SchedulingProofs.WindingProofs

/-! What becomes of the tasks of graphs that several threads process at the same time. -/

namespace DagScheduler.Scheduling

open Graphs Library.Programs Library.Transitions

variable {σ π : Type}

namespace TaskScheduler

variable {s s' : TaskScheduler σ π} {a : Action σ π}

lemma queued_queueTask {t : Option (Task σ π)} (hs : s.step (.queueTask t) = some s') :
    s'.queued = s.queued ++ [t] := by
  simp only [step] at hs
  split at hs
  · cases hs
  · obtain rfl := Option.some.inj hs
    rfl

lemma queued_grows (hs : s.step a = some s') : s.queued <+: s'.queued := by
  rcases step_calls hs with ⟨-, hqueued⟩ | ⟨call, reply, -, hqueued⟩
  · exact hqueued ▸ List.prefix_rfl
  · exact hqueued ▸ List.prefix_append _ _

end TaskScheduler

lemma map_getElem?_grows {α : Type} {l l' : List α} (hl : l <+: l') {ks : List ℕ} (hks : ∀ k ∈ ks, k < l.length) :
    ks.map (fun k => l'[k]?) = ks.map fun k => l[k]? := by
  apply List.map_congr_left
  intro k hk
  obtain ⟨rest, rfl⟩ := hl
  exact List.getElem?_append_left (hks k hk)

namespace Feeding

variable {h : List (Feeding σ π × Action σ π)} {t t' : Feeding σ π} {b : Action σ π} {r : Request σ π}
  {i j : ℕ}

def requestOf (e : Feeding σ π × Action σ π) : Option (Request σ π) :=
  match e.2 with
  | .processDag r => some r
  | _ => none

def ticketOf (i : ℕ) (e : Feeding σ π × Action σ π) : Option ℕ :=
  match e.2 with
  | .proceed j => if j = i then some e.1.scheduler.queued.length else none
  | _ => none

/-- The calls of `process_dag`, in the order in which they began. -/
def requests (h : List (Feeding σ π × Action σ π)) : List (Request σ π) := h.filterMap requestOf

/-- The tickets that the tasks of the `i`-th call got. -/
def tickets (i : ℕ) (h : List (Feeding σ π × Action σ π)) : List ℕ := h.filterMap (ticketOf i)

variable [TaskStage σ] [TaskCallbackPlugin π]

/-- Each call has queued the first of its tasks, in their order, and has yet to queue the others. -/
structure Delivers (h : List (Feeding σ π × Action σ π)) (t : Feeding σ π) : Prop where
  length : t.pending.length = (requests h).length
  sent : ∀ i r, (requests h)[i]? = some r → ∃ sent rest, r.pushes = sent ++ rest ∧ t.pending[i]? = some rest ∧
    (tickets i h).map (fun k => t.scheduler.queued[k]?) = sent.map some
  unasked : ∀ i, (requests h).length ≤ i → tickets i h = []
  increasing : ∀ i, (tickets i h).Pairwise (· < ·)
  past : ∀ i, ∀ k ∈ tickets i h, k < t.scheduler.queued.length
  apart : ∀ i j, i ≠ j → ∀ k ∈ tickets i h, k ∉ tickets j h

lemma Delivers.processDag (hd : Delivers h t) (r : Request σ π) :
    Delivers (h ++ [(t, .processDag r)]) { t with pending := t.pending ++ [r.pushes] } := by
  have hrequests : requests (h ++ [(t, .processDag r)]) = requests h ++ [r] := by simp [requests, requestOf]
  have htickets : ∀ i, tickets i (h ++ [(t, .processDag r)]) = tickets i h := fun i => by simp [tickets, ticketOf]
  constructor
  · simp [hrequests, hd.length]
  · intro i r' hr'
    rw [htickets]
    rcases append_cases (hrequests ▸ hr') with hr' | ⟨rfl, rfl⟩
    · obtain ⟨sent, rest, hpushes, hrest, hsent⟩ := hd.sent i r' hr'
      have hi : i < t.pending.length := (List.getElem?_eq_some_iff.mp hrest).1
      exact ⟨sent, rest, hpushes, (List.getElem?_append_left hi).trans hrest, hsent⟩
    · refine ⟨[], r'.pushes, rfl, ?_, by rw [hd.unasked _ le_rfl]; rfl⟩
      simp [← hd.length]
  · intro i hi
    rw [hrequests, List.length_append] at hi
    exact (htickets i).trans (hd.unasked i (by omega))
  · exact fun i => htickets i ▸ hd.increasing i
  · exact fun i k hk => hd.past i k (htickets i ▸ hk)
  · exact fun i j hij k hk hk' => hd.apart i j hij k (htickets i ▸ hk) (htickets j ▸ hk')

lemma Delivers.call (hd : Delivers h t) (a : TaskScheduler.Action σ π) {scheduler : TaskScheduler σ π}
    (hgrows : t.scheduler.queued <+: scheduler.queued) :
    Delivers (h ++ [(t, .call a)]) { t with scheduler := scheduler } := by
  have hrequests : requests (h ++ [(t, .call a)]) = requests h := by simp [requests, requestOf]
  have htickets : ∀ i, tickets i (h ++ [(t, .call a)]) = tickets i h := fun i => by simp [tickets, ticketOf]
  constructor
  · exact hrequests ▸ hd.length
  · intro i r hr
    obtain ⟨sent, rest, hpushes, hrest, hsent⟩ := hd.sent i r (hrequests ▸ hr)
    refine ⟨sent, rest, hpushes, hrest, ?_⟩
    rw [htickets, map_getElem?_grows hgrows (hd.past i), hsent]
  · exact fun i hi => (htickets i).trans (hd.unasked i (hrequests ▸ hi))
  · exact fun i => htickets i ▸ hd.increasing i
  · exact fun i k hk => (hd.past i k (htickets i ▸ hk)).trans_le hgrows.length_le
  · exact fun i j hij k hk hk' => hd.apart i j hij k (htickets i ▸ hk) (htickets j ▸ hk')

lemma Delivers.proceed (hd : Delivers h t) {p : Option (Task σ π)} {rest : TaskQueue σ π}
    (hp : t.pending[i]? = some (p :: rest)) {scheduler : TaskScheduler σ π}
    (hqueued : scheduler.queued = t.scheduler.queued ++ [p]) :
    Delivers (h ++ [(t, .proceed i)]) ⟨scheduler, t.pending.set i rest⟩ := by
  have hi : i < t.pending.length := (List.getElem?_eq_some_iff.mp hp).1
  have hrequests : requests (h ++ [(t, .proceed i)]) = requests h := by simp [requests, requestOf]
  have hself : tickets i (h ++ [(t, .proceed i)]) = tickets i h ++ [t.scheduler.queued.length] := by
    simp [tickets, ticketOf]
  have hne : ∀ j, j ≠ i → tickets j (h ++ [(t, .proceed i)]) = tickets j h := by
    intro j hj
    simp [tickets, ticketOf, hj.symm]
  have hgrows : t.scheduler.queued <+: scheduler.queued := hqueued ▸ List.prefix_append _ _
  have hlength : scheduler.queued.length = t.scheduler.queued.length + 1 := by simp [hqueued]
  have hmem : ∀ j, ∀ k ∈ tickets j (h ++ [(t, .proceed i)]),
      k ∈ tickets j h ∨ j = i ∧ k = t.scheduler.queued.length := by
    intro j k hk
    by_cases hj : j = i
    · subst hj
      rw [hself, List.mem_append, List.mem_singleton] at hk
      exact hk.imp_right fun hk => ⟨rfl, hk⟩
    · exact .inl (hne j hj ▸ hk)
  constructor
  · simp [hrequests, hd.length]
  · intro j r hr
    obtain ⟨sent, rest', hpushes, hrest, hsent⟩ := hd.sent j r (hrequests ▸ hr)
    have hold : (tickets j h).map (fun k => scheduler.queued[k]?) = sent.map some := by
      rw [map_getElem?_grows hgrows (hd.past j), hsent]
    by_cases hj : j = i
    · subst hj
      obtain rfl := Option.some.inj (hp.symm.trans hrest)
      refine ⟨sent ++ [p], rest, by simpa using hpushes, List.getElem?_set_self hi, ?_⟩
      rw [hself, List.map_append, hold, hqueued]
      simp
    · exact ⟨sent, rest', hpushes, (List.getElem?_set_ne (Ne.symm hj)).trans hrest, hne j hj ▸ hold⟩
  · intro j hj
    have hij : j ≠ i := by
      rintro rfl
      rw [hrequests, ← hd.length] at hj
      omega
    exact (hne j hij).trans (hd.unasked j (hrequests ▸ hj))
  · intro j
    by_cases hj : j = i
    · subst hj
      rw [hself, List.pairwise_append]
      exact ⟨hd.increasing j, List.pairwise_singleton _ _, fun k hk l hl => List.mem_singleton.mp hl ▸ hd.past j k hk⟩
    · exact hne j hj ▸ hd.increasing j
  · intro j k hk
    change k < scheduler.queued.length
    rcases hmem j k hk with hk | ⟨-, rfl⟩
    · have hlt := hd.past j k hk
      omega
    · omega
  · intro j l hjl k hk hk'
    rcases hmem j k hk with hold | ⟨rfl, rfl⟩
    · rcases hmem l k hk' with hold' | ⟨rfl, rfl⟩
      · exact hd.apart j l hjl k hold hold'
      · exact absurd (hd.past j _ hold) (lt_irrefl _)
    · rcases hmem l _ hk' with hold' | ⟨rfl, -⟩
      · exact absurd (hd.past l _ hold') (lt_irrefl _)
      · exact hjl rfl

lemma step_call {a : TaskScheduler.Action σ π} (hs : t.step (.call a) = some t') :
    ∃ scheduler, t.scheduler.step a = some scheduler ∧ t' = { t with scheduler := scheduler } := by
  cases a with
  | queueTask p =>
    cases p with
    | none => cases hs
    | some p =>
      obtain ⟨scheduler, hstep, rfl⟩ := Option.map_eq_some_iff.mp hs
      exact ⟨scheduler, hstep, rfl⟩
  | _ =>
    obtain ⟨scheduler, hstep, rfl⟩ := Option.map_eq_some_iff.mp hs
    exact ⟨scheduler, hstep, rfl⟩

lemma step_proceed (hs : t.step (.proceed i) = some t') : ∃ p rest scheduler, t.pending[i]? = some (p :: rest) ∧
    t.scheduler.step (.queueTask p) = some scheduler ∧ t' = ⟨scheduler, t.pending.set i rest⟩ := by
  simp only [step] at hs
  split at hs
  · rename_i p rest hp
    obtain ⟨scheduler, hstep, rfl⟩ := Option.map_eq_some_iff.mp hs
    exact ⟨p, rest, scheduler, hp, hstep, rfl⟩
  · cases hs

lemma delivers (run : system.Run h t) : TaskScheduler.system.Reachable t.scheduler ∧ Delivers h t := by
  induction run with
  | start => exact ⟨.start, by constructor <;> simp [system, requests, tickets]⟩
  | @step h t t' b _ hs ih =>
    obtain ⟨hr, hd⟩ := ih
    cases b with
    | processDag r =>
      obtain rfl := Option.some.inj hs
      exact ⟨hr, hd.processDag r⟩
    | proceed i =>
      obtain ⟨p, rest, scheduler, hp, hstep, rfl⟩ := step_proceed hs
      exact ⟨TaskScheduler.reachable_step hr hstep, hd.proceed hp (TaskScheduler.queued_queueTask hstep)⟩
    | call a =>
      obtain ⟨scheduler, hstep, rfl⟩ := step_call hs
      exact ⟨TaskScheduler.reachable_step hr hstep, hd.call a (TaskScheduler.queued_grows hstep)⟩

/-- What the `p`-th ticket of a call stands for is the `p`-th task of its graph. -/
lemma Delivers.queued_eq (hd : Delivers h t) (hr : (requests h)[i]? = some r) {p ticket : ℕ}
    (hp : (tickets i h)[p]? = some ticket) : t.scheduler.queued[ticket]? = r.pushes[p]? := by
  obtain ⟨sent, rest, hpushes, -, hsent⟩ := hd.sent i r hr
  have hget := congrArg (fun l => l[p]?) hsent
  simp only [List.getElem?_map, hp, Option.map_some] at hget
  obtain ⟨task, htask, hqueued⟩ := Option.map_eq_some_iff.mp hget.symm
  rw [← hqueued, hpushes, List.getElem?_append_left (List.getElem?_eq_some_iff.mp htask).1, htask]

/-- However many threads process graphs while clients and the scheduler go on: the tasks of each graph enter
the queue in their order, each once and none for another; no task starts before those at the other ends of
its incoming edges have left the queue; and at rest each of them is accounted for once. -/
theorem delivered_along_edges (run : system.Run h t) (hr : (requests h)[i]? = some r) :
    (∃ sent rest, r.pushes = sent ++ rest ∧ t.pending[i]? = some rest ∧
      (tickets i h).map (fun k => t.scheduler.queued[k]?) = sent.map some) ∧
    (tickets i h).Pairwise (· < ·) ∧ (∀ j, j ≠ i → ∀ k ∈ tickets i h, k ∉ tickets j h) ∧
    (r.g.Acyclic r.memory → ∃ order : List Addr, order.Perm r.g.graph ∧
      List.Forall₂ (TaskOf r.memory) order r.pushes ∧
      ∀ (p q : ℕ) (u v : Addr), order[p]? = some u → order[q]? = some v → r.g.Connected r.memory u v → p < q ∧
        ∀ (task : Task σ π) (later : ℕ), r.pushes[p]? = some (some task) → (tickets i h)[q]? = some later →
          t.scheduler.Started later →
            ∃ ticket, (tickets i h)[p]? = some ticket ∧ t.scheduler.Left ticket later) ∧
    (t.scheduler.Alive → t.scheduler.Stalled → ∀ (p ticket : ℕ) (task : Task σ π), r.pushes[p]? = some (some task) →
      (tickets i h)[p]? = some ticket →
        t.scheduler.inQueue ticket + t.scheduler.inHand ticket + t.scheduler.completed ticket +
          t.scheduler.discarded.count ticket + t.scheduler.removed.count ticket = 1) := by
  obtain ⟨hreachable, hd⟩ := delivers run
  refine ⟨hd.sent i r hr, hd.increasing i, fun j hj => hd.apart i j hj.symm, fun hacyclic => ?_, ?_⟩
  · obtain ⟨hcyclic, -⟩ | ⟨-, n, out, hlayering⟩ := r.pushes_eq
    · exact absurd hacyclic hcyclic
    obtain ⟨order, hperm, hall, hpairwise⟩ := in_order hlayering
    refine ⟨order, hperm, hall, fun p q u v hp hq huv => ?_⟩
    have hpq := before_of_connected hacyclic hpairwise hp hq huv
    refine ⟨hpq, fun task later htask hlater hstarted => ?_⟩
    obtain ⟨hq', rfl⟩ := List.getElem?_eq_some_iff.mp hlater
    have hp' : p < (tickets i h).length := hpq.trans hq'
    refine ⟨(tickets i h)[p], List.getElem?_eq_getElem hp', ?_⟩
    have hlt := List.pairwise_iff_getElem.mp (hd.increasing i) p q hp' hq' hpq
    have hqueued := (hd.queued_eq hr (List.getElem?_eq_getElem hp')).trans htask
    exact TaskScheduler.started_left hreachable hlt hqueued hstarted
  · intro halive hstalled p ticket task htask hp
    exact hstalled.accounts halive hreachable ((hd.queued_eq hr hp).trans htask)

namespace Sample

/-- A second thread begins to process the graph before the first one is done, and two calls of `startup`
hand the tasks of the first to threads. -/
def mingled : List (Action Unit Unit) :=
  [.processDag taskedRequest, .proceed 0, .processDag taskedRequest, .proceed 0, .proceed 1] ++
    Scheduling.Sample.overtake.map .call

end Sample

theorem delivered_along_edges_sample : ∃ t, system.Run (system.trace system.start Sample.mingled) t ∧
    tickets 0 (system.trace system.start Sample.mingled) = [0, 1] ∧
    tickets 1 (system.trace system.start Sample.mingled) = [2] ∧
    (requests (system.trace system.start Sample.mingled))[0]? = some Sample.taskedRequest ∧
    Graphs.Sample.dag.Connected Graphs.Sample.memory 0 1 ∧ t.scheduler.Started 1 ∧ t.scheduler.Left 0 1 := by
  have hany : (system.exec system.start Sample.mingled).any
      (fun t => (1, 0) ∈ (t.scheduler.threadPool 1).stagesRun) = true := by decide +kernel
  obtain ⟨t, ht, hp⟩ := System.exec_any hany
  have run : system.Run (system.trace system.start Sample.mingled) t := System.exec_trace ht
  have hfirst : tickets 0 (system.trace system.start Sample.mingled) = [0, 1] := by decide +kernel
  have hsecond : tickets 1 (system.trace system.start Sample.mingled) = [2] := by decide +kernel
  have hrequest : (requests (system.trace system.start Sample.mingled))[0]? = some Sample.taskedRequest := by rfl
  have hedge : Graphs.Sample.dag.Connected Graphs.Sample.memory 0 1 := ⟨by decide, by decide, by decide⟩
  have hstarted : t.scheduler.Started 1 := ⟨1, 0, of_decide_eq_true hp⟩
  obtain ⟨-, -, -, horder, -⟩ := delivered_along_edges run hrequest
  obtain ⟨order, hperm, -, hedges⟩ := horder Scheduling.Sample.acyclic
  obtain ⟨p, hp⟩ := List.mem_iff_getElem?.mp (hperm.mem_iff.mpr hedge.1)
  obtain ⟨q, hq⟩ := List.mem_iff_getElem?.mp (hperm.mem_iff.mpr hedge.2.1)
  obtain ⟨hpq, hleft⟩ := hedges p q 0 1 hp hq hedge
  -- of two tasks, the one at the beginning of the edge is the first
  have hlength : order.length = 2 := hperm.length_eq
  have hq' : q < order.length := (List.getElem?_eq_some_iff.mp hq).1
  obtain ⟨rfl, rfl⟩ : p = 0 ∧ q = 1 := by omega
  have htask : Sample.taskedRequest.pushes[0]?.any Option.isSome = true := by decide +kernel
  obtain ⟨pushed, hpushed, hsome⟩ := (Option.any_eq_true _ _).mp htask
  obtain ⟨task, rfl⟩ := Option.isSome_iff_exists.mp hsome
  obtain ⟨ticket, hticket, hbefore⟩ := hleft task 1 hpushed (by rw [hfirst]; rfl) hstarted
  rw [hfirst] at hticket
  obtain rfl : 0 = ticket := Option.some.inj hticket
  exact ⟨t, run, hfirst, hsecond, hrequest, hedge, hstarted, hbefore⟩

end Feeding

end DagScheduler.Scheduling

import DagScheduler.GraphProofs.IntegrityProofs
import DagScheduler.GraphProofs.ProcessProofs
import DagScheduler.GraphProofs.SerializationProofs
import DagScheduler.Scheduling.Feeding
import DagScheduler.SchedulingProofs.QueueProofs

/-! Null pointers get into the queue of a scheduler through `process_dag` only, from the vertices
that have no task. -/

namespace DagScheduler.Scheduling

open Graphs Library.Programs Library.Layers Library.Transitions

variable {σ π : Type} {s s' : TaskScheduler σ π} {a : TaskScheduler.Action σ π}

lemma TaskScheduler.step_queue (hs : s.step a = some s') :
    s'.queue.Sublist s.queue ∨ ∃ t, a = .queueTask t ∧ s'.queue = s.queue ++ [t.map fun t => ⟨s.queued.length, t⟩] := by
  obtain ⟨-, hm⟩ := step_cases hs
  cases hm with
  | queueTask t => exact .inr ⟨t, rfl, rfl⟩
  | unlink u => exact .inl List.filter_sublist
  | popNull i l rest hl pc queue | pop i l job rest hl pc queue => exact .inl (queue ▸ List.sublist_cons_self _ rest)
  | _ => exact .inl (List.Sublist.refl _)

lemma TaskScheduler.step_nonnull (hs : s.step a = some s') (hq : none ∉ s.queue)
    (ha : a ≠ .queueTask none) : none ∉ s'.queue := by
  rcases step_queue hs with hsub | ⟨t, rfl, hqueue⟩
  · exact fun hnone => hq (hsub.subset hnone)
  · rw [hqueue]
    intro hnone
    rcases List.mem_append.mp hnone with hnone | hnone
    · exact hq hnone
    · refine ha ?_
      cases t with
      | none => rfl
      | some t => simp at hnone

variable [TaskStage σ] [TaskCallbackPlugin π]

def Request.Tasked (r : Request σ π) : Prop :=
  ∀ a ∈ r.g.graph, ∀ v, r.memory.vertex a = some v → v.task.isSome

lemma layering_none {g : DAG} {m : Memory σ π} {n : ℕ} {out : Batches σ π} {tasks : TaskQueue σ π}
    (h : Layering g m n out tasks) : none ∈ tasks ↔ ∃ a ∈ g.graph, ∃ v, m.vertex a = some v ∧ v.task = none := by
  have hout : none ∈ tasks ↔ ∃ v ∈ out.flatten, v.task = none := by
    have hmem : none ∈ tasks.map (Option.map Task.uuid) ↔ none ∈ out.flatten.map fun v => v.task.map Task.uuid := by
      rw [h.tasks_eq]
    simpa only [List.mem_map, Option.map_eq_none_iff, exists_eq_right] using hmem
  have hflat := List.rel_flatten h.batches
  rw [hout]
  constructor
  · rintro ⟨v, hv, hnone⟩
    obtain ⟨i, hi, rfl⟩ := List.getElem_of_mem hv
    have hi' : i < ((List.range n).map (layer g.graph m.targets)).flatten.length := hflat.length_eq ▸ hi
    obtain ⟨w, hw, he⟩ := hflat.get hi' hi
    rw [List.get_eq_getElem] at he
    refine ⟨_, h.once.mem_iff.mp (List.getElem_mem hi'), w, hw, ?_⟩
    simpa [he, DAGVertex.clone] using hnone
  · rintro ⟨a, ha, w, hw, hnone⟩
    obtain ⟨i, hi, rfl⟩ := List.getElem_of_mem (h.once.mem_iff.mpr ha)
    have hi' : i < out.flatten.length := hflat.length_eq ▸ hi
    obtain ⟨w', hw', he⟩ := hflat.get hi hi'
    rw [List.get_eq_getElem] at hw' he
    obtain rfl := Option.some.inj (hw.symm.trans hw')
    exact ⟨_, List.getElem_mem hi', by simp [he, DAGVertex.clone, hnone]⟩

lemma Request.pushes_eq (r : Request σ π) : (¬ r.g.Acyclic r.memory ∧ r.pushes = []) ∨
    r.g.Acyclic r.memory ∧ ∃ n out, Layering r.g r.memory n out r.pushes := by
  obtain ⟨acyclic, out, queue, m', hr, -, hacyclic, hfalse, htrue⟩ :=
    processDag_layering r.clonable (le_refl _) ([] : Batches σ π) []
  have hpushes : r.pushes = queue := by
    unfold Request.pushes
    rw [show (processDag false r.g.graph.length r.g [] []).run r.memory = .ok ((acyclic, out, queue), m') from hr]
  cases acyclic with
  | false =>
    refine .inl ⟨fun hac => ?_, hpushes.trans (hfalse rfl).2⟩
    simpa using hacyclic.mpr hac
  | true =>
    obtain ⟨n, tasks, hlayering, hqueue⟩ := htrue rfl
    rw [List.nil_append] at hqueue
    exact .inr ⟨hacyclic.mp rfl, n, out, by rw [hpushes, hqueue]; exact hlayering⟩

lemma Request.nonnull_iff (r : Request σ π) : none ∉ r.pushes ↔ (r.g.Acyclic r.memory → r.Tasked) := by
  rcases r.pushes_eq with ⟨hcyclic, hnil⟩ | ⟨hacyclic, n, out, hlayering⟩
  · simp [hnil, hcyclic]
  · rw [layering_none hlayering]
    simp only [hacyclic, true_imp_iff, Request.Tasked, not_exists, not_and, ← Option.ne_none_iff_isSome]

namespace Feeding

variable {t t' : Feeding σ π} {b : Action σ π}

def Action.Tasked : Action σ π → Prop
  | .processDag r => r.g.Acyclic r.memory → r.Tasked
  | _ => True

structure Nonnull (t : Feeding σ π) : Prop where
  queue : none ∉ t.scheduler.queue
  pending : ∀ l ∈ t.pending, none ∉ l

lemma Nonnull.step (h : t.Nonnull) (hb : b.Tasked) (hs : t.step b = some t') : t'.Nonnull := by
  cases b with
  | processDag r =>
    obtain rfl := Option.some.inj hs
    refine ⟨h.queue, fun l hl => ?_⟩
    rcases List.mem_append.mp hl with hl | hl
    · exact h.pending l hl
    · rw [List.mem_singleton.mp hl]
      exact r.nonnull_iff.mpr hb
  | proceed i =>
    simp only [Feeding.step] at hs
    split at hs
    · rename_i p rest hp
      obtain ⟨scheduler, hstep, rfl⟩ := Option.map_eq_some_iff.mp hs
      have hl := h.pending _ (List.mem_of_getElem? hp)
      refine ⟨TaskScheduler.step_nonnull hstep h.queue ?_, fun l hmem => ?_⟩
      · rintro ⟨⟩
        exact hl List.mem_cons_self
      · rcases List.mem_or_eq_of_mem_set hmem with hmem | rfl
        · exact h.pending l hmem
        · exact fun hnone => hl (List.mem_cons_of_mem _ hnone)
    · simp at hs
  | call a =>
    have hne : a ≠ .queueTask none := by
      rintro rfl
      simp [Feeding.step] at hs
    have hs' : (t.scheduler.step a).map (fun scheduler => { t with scheduler := scheduler }) = some t' := by
      rw [← hs]
      cases a with
      | queueTask p =>
        cases p with
        | none => exact absurd rfl hne
        | some p => rfl
      | _ => rfl
    obtain ⟨scheduler, hstep, rfl⟩ := Option.map_eq_some_iff.mp hs'
    exact ⟨TaskScheduler.step_nonnull hstep h.queue hne, h.pending⟩

/-- What `process_dag` is given decides whether the queue ever holds a null pointer. -/
theorem queue_never_null :
    (∀ r : Request σ π, none ∉ r.pushes ↔ (r.g.Acyclic r.memory → r.Tasked)) ∧
    ∀ h (t : Feeding σ π), system.Run h t → (∀ e ∈ h, e.2.Tasked) → none ∉ t.scheduler.queue ∧
      ∀ u retPtr, (⟨t.scheduler.queue⟩ : ConcurrentTaskQueue σ π).removeTaskFromQueue u retPtr ≠ none := by
  refine ⟨Request.nonnull_iff, fun h t run hh => ?_⟩
  have hnonnull : t.Nonnull := run.invariant_of (C := fun _ b => b.Tasked)
    ⟨by simp [system, TaskScheduler.init], by simp [system]⟩ (fun _ _ _ _ hb hI hs => hI.step hb hs) hh
  refine ⟨hnonnull.queue, fun u retPtr hnone => ?_⟩
  obtain ⟨jobs, hjobs⟩ := Job.exists_jobs hnonnull.queue
  rw [hjobs, ConcurrentTaskQueue.removeTaskFromQueue_eq] at hnone
  simp at hnone

namespace Sample

def untasked : DAGVertex Unit Unit := { Graphs.Sample.fresh 1 with task := none }

def world : World Unit Unit := (Graphs.Sample.start.step 0 (.addVertex untasked)).get (by decide +kernel)

lemma world_run : Run Graphs.Sample.start [⟨Graphs.Sample.start, 0, .addVertex untasked⟩] world :=
  Run.start.step (⟨rfl, rfl⟩ : untasked.Disconnected) (Option.some_get _).symm

lemma world_clonable : ∀ g ∈ world.dags, g.Clonable world.memory := by
  refine Run.clonable world_run fun e he g _ => ?_
  obtain rfl := List.mem_singleton.mp he
  exact ⟨Call.Disconnected.brings ⟨rfl, rfl⟩, DAG.clear_of_none fun _ => rfl⟩

def untaskedRequest : Request Unit Unit :=
  ⟨world.dags.head world_run.dags_ne_nil, world.memory, world_clonable _ (List.head_mem _)⟩

def taskedRequest : Request Unit Unit := ⟨Graphs.Sample.dag, Graphs.Sample.memory, Graphs.Sample.wellFormed.toClonable⟩

def fed : List (Action Unit Unit) :=
  [.processDag taskedRequest, .call (.queueTask (some Graphs.Sample.task₁)), .proceed 0, .proceed 0]

lemma tasked : taskedRequest.Tasked := by
  have hall : ∀ a ∈ Graphs.Sample.dag.graph, (Graphs.Sample.memory.vertex a).all (fun v => v.task.isSome) = true := by
    decide +kernel
  intro a ha v hv
  simpa [show Graphs.Sample.memory.vertex a = some v from hv] using hall a ha

lemma fed_tasked : ∀ b ∈ fed, b.Tasked := by
  intro b hb
  simp only [fed, List.mem_cons, List.not_mem_nil, or_false] at hb
  rcases hb with rfl | rfl | rfl | rfl
  · exact fun _ => tasked
  · trivial
  · trivial
  · trivial

end Sample

theorem queue_never_null_sample : none ∉ Sample.taskedRequest.pushes ∧
    ∃ t : Feeding Unit Unit, system.exec system.start Sample.fed = some t ∧ t.scheduler.queue.length = 3 ∧
      none ∉ t.scheduler.queue := by
  refine ⟨(queue_never_null.1 Sample.taskedRequest).mpr fun _ => Sample.tasked, ?_⟩
  have hany : (system.exec system.start Sample.fed).any
      (fun t : Feeding Unit Unit => t.scheduler.queue.length = 3) = true := by
    decide +kernel
  obtain ⟨t, ht, hlength⟩ := System.exec_any hany
  obtain ⟨h, run, hh⟩ := (System.exec_leads Sample.fed_tasked ht).run
  exact ⟨t, ht, of_decide_eq_true hlength, (queue_never_null.2 h t run hh).1⟩

/-- The vertex's null pointer is queued, and `kill_task` dereferences it. -/
theorem queue_never_null_fails : Sample.untaskedRequest.memory = Sample.world.memory ∧
    Sample.untaskedRequest.g ∈ Sample.world.dags ∧
    ∃ t : Feeding Unit Unit, system.exec system.start [.processDag Sample.untaskedRequest, .proceed 0] = some t ∧
      none ∈ t.scheduler.queue ∧ (t.scheduler.killTask ⟨7⟩).fault = some .undefined := by
  have hany : (system.exec system.start [.processDag Sample.untaskedRequest, .proceed 0]).any
      (fun t : Feeding Unit Unit => t.scheduler.queue.any Option.isNone &&
        (t.scheduler.killTask ⟨7⟩).fault == some .undefined) = true := by
    decide +kernel
  obtain ⟨t, ht, hp⟩ := System.exec_any hany
  simp only [Bool.and_eq_true, List.any_eq_true, Option.isNone_iff_eq_none, exists_eq_right, beq_iff_eq] at hp
  exact ⟨rfl, List.head_mem Sample.world_run.dags_ne_nil, t, ht, hp⟩

end Feeding

end DagScheduler.Scheduling

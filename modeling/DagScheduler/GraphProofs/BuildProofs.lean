import DagScheduler.GraphProofs.ProcessProofs

/-! `process_dag` removes the vertices of a batch inside of an `assert`. A build that discards the
arguments of `assert` takes the same batch again and again. -/

namespace DagScheduler.Graphs

open Library Library.Programs Library.Digraphs Library.Layers

variable {σ π : Type} [TaskStage σ] [TaskCallbackPlugin π] {m m' : Memory σ π} {g : DAG}
  {curr : List Addr} {ndebug : Bool}

lemma takeBatch_discarded {s s' : DAG × List (DAGVertex σ π)}
    (hr : Returns (curr.foldlM (takeVertex true) s) m s' m') : s'.1 = s.1 ∧ m' = m := by
  induction curr generalizing s m with
  | nil =>
    obtain ⟨rfl, rfl⟩ := returns_foldlM_nil.mp hr
    exact ⟨rfl, rfl⟩
  | cons v vs ih =>
    obtain ⟨s₁, m₁, hr₁, hr₂⟩ := returns_foldlM_cons.mp hr
    simp only [takeVertex, if_true, returns_bind, returns_deref, returns_pure] at hr₁
    obtain ⟨_, _, ⟨-, rfl⟩, rfl, rfl⟩ := hr₁
    have hrest := ih hr₂
    exact hrest

/-- With the removal discarded each round ends where it began. -/
lemma processLoop_discarded (hne : curr ≠ []) (hn : curr.Nodup) (ho : ∀ a ∈ curr, 0 < m.vertices.owners a)
    (hcurr : Returns (dagVerticesWithNoIncommingEdges g) m curr m) (fuel : ℕ) (out : Batches σ π)
    (queue : TaskQueue σ π) (r : DAG × Batches σ π × TaskQueue σ π) :
    ¬ Returns (processLoop true fuel g curr out queue) m r m' := by
  obtain ⟨v, vs, rfl⟩ := List.exists_cons_of_ne_nil hne
  induction fuel generalizing out queue with
  | zero => simp [processLoop]
  | succ fuel ih =>
    simp only [processLoop, returns_bind, returns_modify]
    rintro ⟨_, _, rfl, ⟨g₁, clones⟩, m₁, htake, _, _, rfl, curr', m₂, hcurr', hr⟩
    obtain ⟨rfl, rfl⟩ := takeBatch_discarded htake
    rw [Memory.release_retain hn ho] at hcurr'
    obtain ⟨rfl, rfl⟩ := hcurr'.unique hcurr
    exact ih _ _ hr

namespace DAG

def Finishes (ndebug : Bool) (g : DAG) (m : Memory σ π) : Prop :=
  ∀ out queue, ∃ r m', Returns (processDag ndebug g.graph.length g out queue) m r m'

def SameInEveryBuild (g : DAG) (m : Memory σ π) : Prop :=
  ∀ out queue, ∃ r, ∀ ndebug, ∃ m', Returns (processDag ndebug g.graph.length g out queue) m r m'

lemma processDag_discarded (hg : g.Clonable m) (hac : g.Acyclic m) (hne : g.graph ≠ []) (fuel : ℕ)
    (out : Batches σ π) (queue : TaskQueue σ π) (r : Bool × Batches σ π × TaskQueue σ π) :
    ¬ Returns (processDag true fuel g out queue) m r m' := by
  obtain ⟨gClone, m₁, gCheck, m₂, cyclic, check, m₃, hr₁, hr₂, hr₃, hp, hcyclic, hlen⟩ := prepare_returns hg
  obtain rfl : cyclic = false := hcyclic.mpr hac
  have hround := hp.roundInv
  intro hr
  simp only [processDag, returns_bind] at hr
  obtain ⟨k₁, _, h₁, k₂, _, h₂, _, _, h₃, hr⟩ := hr
  obtain ⟨rfl, rfl⟩ := h₁.unique hr₁
  obtain ⟨rfl, rfl⟩ := h₂.unique hr₂
  obtain ⟨rfl, rfl⟩ := h₃.unique hr₃
  rw [if_pos (by simp [hlen rfl])] at hr
  simp only [returns_bind] at hr
  obtain ⟨curr, _, hcurr, r', _, hloop, -⟩ := hr
  obtain ⟨rfl, rfl⟩ := hcurr.unique hp.first
  refine processLoop_discarded ?_ ?_ ?_ hp.first fuel [] queue r' hloop
  · apply layer_ne_nil (hp.acyclic hg hac)
    rw [remaining_zero, hp.clone.graph]
    simpa using hne
  · exact hround.sound.nodup.sublist hround.layer_sublist
  · intro a ha
    rw [hround.sound.sole a (hround.layer_sublist.subset ha)]
    exact Nat.one_pos

lemma processDag_empty (hg : g.Clonable m) (hac : g.Acyclic m) (hnil : g.graph = []) (ndebug : Bool) (fuel : ℕ)
    (out : Batches σ π) (queue : TaskQueue σ π) :
    ∃ m', Returns (processDag ndebug fuel g out queue) m (true, [], queue) m' := by
  obtain ⟨gClone, m₁, gCheck, m₂, cyclic, check, m₃, hr₁, hr₂, hr₃, hp, hcyclic, hlen⟩ := prepare_returns hg
  obtain rfl : cyclic = false := hcyclic.mpr hac
  have hempty : gClone.graph = [] := by rw [hp.clone.graph, hnil, List.map_nil]
  refine ⟨(m₃.release gClone.graph).release gCheck.graph, ?_⟩
  simp only [processDag, returns_bind]
  refine ⟨gClone, m₁, hr₁, gCheck, m₂, hr₂, (false, check), m₃, hr₃, ?_⟩
  rw [if_pos (by simp [hlen rfl])]
  simp [dagVerticesWithNoIncommingEdges, hempty, withoutIncommingEdges, processLoop, DAG.destroy]

/-- `process_dag` finishes where the removal is not discarded or there is nothing to remove. -/
theorem processDag_builds (hg : g.WellFormed m) (hac : g.Acyclic m) :
    (∀ ndebug, g.Finishes ndebug m ↔ ndebug = false ∨ g.graph = []) ∧
    (g.SameInEveryBuild m ↔ g.graph = []) ∧
    (g.graph ≠ [] → ∀ fuel out queue r m', ¬ Returns (processDag true fuel g out queue) m r m') := by
  have hnever (hne : g.graph ≠ []) {fuel : ℕ} {out : Batches σ π} {queue : TaskQueue σ π}
      {r : Bool × Batches σ π × TaskQueue σ π} {m' : Memory σ π} :
      ¬ Returns (processDag true fuel g out queue) m r m' :=
    processDag_discarded hg.toClonable hac hne fuel out queue r
  refine ⟨fun ndebug => ⟨fun hf => ?_, ?_⟩, ⟨fun hs => ?_, ?_⟩, fun hne _ _ _ _ _ => hnever hne⟩
  · cases ndebug with
    | false => exact .inl rfl
    | true =>
      obtain ⟨r, m', hr⟩ := hf [] []
      by_contra hne
      exact hnever (not_or.mp hne).2 hr
  · rintro (rfl | hnil) out queue
    · obtain ⟨n, tasks, out', m', hr, -⟩ := processDag_acyclic hg.toClonable hac (le_refl _) out queue
      exact ⟨_, m', hr⟩
    · exact ⟨_, processDag_empty hg.toClonable hac hnil ndebug _ out queue⟩
  · obtain ⟨r, hr⟩ := hs [] []
    obtain ⟨m', hr⟩ := hr true
    by_contra hne
    exact hnever hne hr
  · exact fun hnil out queue => ⟨_, fun ndebug => processDag_empty hg.toClonable hac hnil ndebug _ out queue⟩

theorem processDag_builds_sample :
    (∀ ndebug, Sample.dag.Finishes ndebug Sample.memory ↔ ndebug = false ∨ Sample.dag.graph = []) ∧
    (Sample.dag.SameInEveryBuild Sample.memory ↔ Sample.dag.graph = []) ∧
    (Sample.dag.graph ≠ [] → ∀ fuel out queue r m',
      ¬ Returns (processDag true fuel Sample.dag out queue) Sample.memory r m') :=
  processDag_builds Sample.wellFormed Sample.acyclic

theorem processDag_builds_fails :
    Sample.dag.WellFormed Sample.memory ∧ Sample.dag.Acyclic Sample.memory ∧
    (∃ r m', Returns (processDag false 2 Sample.dag [] []) Sample.memory r m') ∧
    ∀ fuel r m', ¬ Returns (processDag true fuel Sample.dag [] []) Sample.memory r m' := by
  refine ⟨Sample.wellFormed, Sample.acyclic, ?_, fun fuel r m' => ?_⟩
  · obtain ⟨n, tasks, out', m', hr, -⟩ :=
      processDag_acyclic Sample.wellFormed.toClonable Sample.acyclic (le_refl 2) [] []
    exact ⟨_, m', hr⟩
  · exact processDag_discarded Sample.wellFormed.toClonable Sample.acyclic (by decide) fuel [] [] r

end DAG

end DagScheduler.Graphs

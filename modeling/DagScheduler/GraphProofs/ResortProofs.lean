import DagScheduler.GraphProofs.LookupProofs
import DagScheduler.GraphProofs.ProcessProofs

/-! The sort cuts the edges of the vertices it lists, in the graph it is given. A graph that lost an
edge that way cannot be sorted, cloned, connected or processed. -/

namespace DagScheduler.Graphs

open Library Library.Programs Library.Digraphs Relation

variable {σ π : Type} {m m' : Memory σ π} {g : DAG} {a : Addr} {Q : List Addr}

lemma sortLoop_edgeless {fuel : ℕ} (hlive : ∀ a ∈ Q, m.Live a) (hQ : ∀ a ∈ Q, m.edges a = []) (hfuel : Q.length ≤ fuel)
    (L : List Addr) : Returns (sortLoop fuel Q L) m (L ++ Q) m := by
  induction Q generalizing fuel L with
  | nil => simp [sortLoop]
  | cons c Q ih =>
    obtain ⟨fuel, rfl⟩ : ∃ k, fuel = k + 1 := Nat.exists_eq_add_of_le' ((Nat.succ_pos _).trans_le hfuel)
    obtain ⟨v, hv⟩ := Memory.live_iff.mp (hlive c List.mem_cons_self)
    have hve : v.edges = [] := (edges_of_vertex hv).symm.trans (hQ c List.mem_cons_self)
    have hrest := ih (fun b hb => hlive b (List.mem_cons_of_mem _ hb)) (fun b hb => hQ b (List.mem_cons_of_mem _ hb))
      (Nat.le_of_succ_le_succ hfuel) (L ++ [c])
    simp only [sortLoop, returns_bind, returns_deref]
    refine ⟨v, m, ⟨hv, rfl⟩, Q, m, by simp [hve], ?_⟩
    rwa [List.append_cons L c Q]

lemma visitEdge_stuck {c : Addr} (ht : m.targets c = []) (i : ℕ) (Q' : List Addr) :
    ¬ Returns (visitEdge c Q i) m Q' m' := by
  intro hr
  simp only [visitEdge, returns_bind, returns_deref] at hr
  obtain ⟨v, m, ⟨hv, rfl⟩, hr⟩ := hr
  have hnone : ∀ e ∈ v.edges, m.connection e = none := by
    rw [← edges_of_vertex hv]
    exact List.filterMap_eq_nil_iff.mp ht
  cases he : v.edges[i]? with
  | none => simp [he] at hr
  | some e =>
    simp only [he, returns_bind] at hr
    obtain ⟨x, _, hx, _, _, -, _, _, -, hr⟩ := hr
    obtain ⟨rfl, -⟩ := returns_lock_edge.mp hx
    rw [hnone e (List.mem_of_getElem? he)] at hr
    simp at hr

/-- The loop fails at the first vertex that still has an edge. -/
lemma sortLoop_stuck (hQ : ∀ b ∈ Q, m.targets b = []) (ha : a ∈ Q) (hne : m.edges a ≠ []) (fuel : ℕ)
    (L L' : List Addr) : ¬ Returns (sortLoop fuel Q L) m L' m' := by
  induction fuel generalizing Q L with
  | zero =>
    obtain ⟨c, Q, rfl⟩ := List.exists_cons_of_ne_nil (List.ne_nil_of_mem ha)
    simp [sortLoop]
  | succ fuel ih =>
    obtain ⟨c, Q, rfl⟩ := List.exists_cons_of_ne_nil (List.ne_nil_of_mem ha)
    intro hr
    simp only [sortLoop, returns_bind, returns_deref] at hr
    obtain ⟨v, _, ⟨hv, rfl⟩, Q', m₁, hvisits, hr⟩ := hr
    cases hve : v.edges with
    | nil =>
      simp only [hve, List.length_nil, List.range_zero, returns_foldlM_nil] at hvisits
      obtain ⟨rfl, rfl⟩ := hvisits
      have hac : a ≠ c := by
        rintro rfl
        exact hne ((edges_of_vertex hv).trans hve)
      exact ih (fun b hb => hQ b (List.mem_cons_of_mem _ hb)) (List.mem_of_ne_of_mem hac ha) _ hr
    | cons e es =>
      rw [hve, List.length_cons, List.range_succ_eq_map, returns_foldlM_cons] at hvisits
      obtain ⟨Q₁, m₂, hvisit, -⟩ := hvisits
      exact visitEdge_stuck (hQ c List.mem_cons_self) 0 Q₁ hvisit

lemma not_behindCycle_of_count (hg : g.WellFormed m) (ha : a ∈ g.graph) (hzero : m.count a = 0) :
    ¬ BehindCycle (g.Connected m) a := by
  rintro ⟨c, hcc, hca⟩
  obtain ⟨u, -, hu, -, hua⟩ := TransGen.tail'_iff.mp (hcc.trans_left hca)
  rw [hg.counted a ha] at hzero
  exact inDegree_eq_zero.mp hzero u hu hua

variable [TaskStage σ] [TaskCallbackPlugin π]

lemma dagTopologicalSort_edgeless (hg : g.WellFormed m) (hnone : ∀ a ∈ g.graph, m.count a = 0 → m.edges a = []) :
    ∃ r, Returns (dagTopologicalSort g) m r m := by
  let Q := g.graph.filter fun a => m.count a = 0
  have hQ : ∀ a ∈ Q, m.Live a ∧ m.edges a = [] := by
    intro a ha
    obtain ⟨hag, hzero⟩ := List.mem_filter.mp ha
    exact ⟨hg.live a hag, hnone a hag (of_decide_eq_true hzero)⟩
  obtain ⟨sorted, hs, -⟩ := clones_returns fun a ha => (hQ a ha).1
  have hloop := sortLoop_edgeless (fun a ha => (hQ a ha).1) (fun a ha => (hQ a ha).2)
    (List.length_filter_le _ g.graph) []
  refine ⟨(Q.length != g.graph.length, sorted), ?_⟩
  simp only [dagTopologicalSort, dagVerticesWithNoIncommingEdges, returns_bind, returns_pure]
  exact ⟨Q, m, withoutIncommingEdges_returns hg.live, Q, m, hloop, sorted, m, hs, rfl, rfl⟩

namespace DAG

structure Usable (g : DAG) (m₀ m : Memory σ π) : Prop where
  clones : ∃ k m', Returns g.clone m k m'
  -- Before and after: where `g` has a cycle, the text of the exception of `connect` never ends.
  connects : ∀ v1 v2 : DAGVertex σ π, (g.connect v1 v2).run m = (g.connect v1 v2).run m₀
  replies : g.Acyclic m → ∀ v1 v2 : DAGVertex σ π, ∃ reply m', Returns (g.connect v1 v2) m reply m'
  processes : ∀ out queue, ∃ r m', Returns (processDag false g.graph.length g out queue) m r m'

structure Spent (g : DAG) (m : Memory σ π) : Prop where
  sorts : ∀ r m', ¬ Returns (dagTopologicalSort g) m r m'
  clones : ∀ k m', ¬ Returns g.clone m k m'
  connects : ∀ (v1 v2 : DAGVertex σ π) reply m', g.Both m v1.uuid v2.uuid → ¬ Returns (g.connect v1 v2) m reply m'
  processes : ∀ ndebug fuel out queue r m', ¬ Returns (processDag ndebug fuel g out queue) m r m'

/-- The sort changes no edge and no counter, and everything can be done with the graph as before. -/
def SortIsQuery (g : DAG) (m : Memory σ π) : Prop :=
  ∃ r m₁, Returns (dagTopologicalSort g) m r m₁ ∧
    (∀ a ∈ g.graph, m₁.edges a = m.edges a ∧ m₁.count a = m.count a) ∧
    (∃ m₂, Returns (dagTopologicalSort g) m₁ r m₂) ∧ g.Usable m m₁

lemma WellFormed.usable (hg : g.WellFormed m) : g.Usable m m where
  clones := by
    obtain ⟨k, m', hr, -⟩ := clone_returns hg.toOwned hg.uuids hg.toClonable.known hg.config hg.toClonable.resolves
    exact ⟨k, m', hr⟩
  connects _ _ := rfl
  replies _ := connect_total hg
  processes out queue := by
    obtain ⟨_, _, _, m', hr, -⟩ := processDag_layering hg.toClonable le_rfl out queue
    exact ⟨_, m', hr⟩

lemma spent_of_not_clones (ho : g.Owned m) (hu : g.DistinctUuids m)
    (hsort : ∀ r m', ¬ Returns (dagTopologicalSort g) m r m') (hclone : ∀ k m', ¬ Returns g.clone m k m') :
    g.Spent m where
  sorts := hsort
  clones := hclone
  connects v1 v2 reply m' hboth hr := by
    obtain ⟨a, ha, b, hb, v, w, hv, hw, hv1, hw2⟩ := hboth.vertices ho
    simp only [connect, returns_bind] at hr
    obtain ⟨x, _, hx, y, _, hy, hr⟩ := hr
    obtain ⟨rfl, rfl⟩ := hx.unique (findVertex_self ho hu ha ((uuid_of_vertex hv).trans (congrArg some hv1)))
    obtain ⟨rfl, rfl⟩ := hy.unique (findVertex_self ho hu hb ((uuid_of_vertex hw).trans (congrArg some hw2)))
    simp only [ha, hb, and_self, if_true, returns_bind, connectionWouldMakeCyclic] at hr
    obtain ⟨_, _, hread, _, _, hread', _, _, ⟨k, m₁, hk, -⟩, -⟩ := hr
    obtain ⟨-, rfl⟩ := returns_deref.mp hread
    obtain ⟨-, rfl⟩ := returns_deref.mp hread'
    exact hclone k m₁ hk
  processes ndebug fuel out queue r m' hr := by
    simp only [processDag, returns_bind] at hr
    obtain ⟨k, m₁, hk, -⟩ := hr
    exact hclone k m₁ hk

lemma sort_spends (hg : g.WellFormed m) (ha : a ∈ g.graph) (hne : m.edges a ≠ [])
    (hfree : ¬ BehindCycle (g.Connected m) a) :
    ∃ r m₁, Returns (dagTopologicalSort g) m r m₁ ∧ m₁.edges a ≠ m.edges a ∧ g.Spent m₁ := by
  obtain ⟨L, sorted, m₁, hr, h, -⟩ := dagTopologicalSort_sorts hg.toOwned hg.inside hg.counted
  have hsorted : a ∈ L := by
    rw [connected_eq hg.inside.closed] at hfree
    exact h.kahn.mem_sorted_iff.mpr ⟨ha, hfree⟩
  have ho : g.Owned m₁ := ⟨hg.nodup, fun b hb => (h.frame.live b).mpr (hg.live b hb)⟩
  have hu : g.DistinctUuids m₁ := by
    intro b hb c hc hbc
    rw [h.frame.uuid, h.frame.uuid] at hbc
    exact hg.uuids b hb c hc hbc
  have hknown : g.Known m₁ := by
    intro b hb e he c hc
    rw [h.frame.next]
    rcases h.origin b e he with he | he
    · exact hg.toClonable.known b hb e he c hc
    · rw [he] at hc
      cases hc
  have htargets : ∀ b ∈ L, m₁.targets b = [] := fun b hb => h.kahn.done b hb (by simp)
  have hleft : m₁.edges a ≠ [] := by
    rw [← List.length_pos_iff, h.length, List.length_pos_iff]
    exact hne
  have hclone : ∀ k m', ¬ Returns g.clone m₁ k m' := by
    intro k m' hk
    obtain ⟨e, es, hes⟩ := List.exists_cons_of_ne_nil hleft
    have hmem : e ∈ m₁.edges a := by simp [hes]
    have hresolve := (clone_resolves ho hu hknown hk).1 a ha e hmem
    have hcut := List.filterMap_eq_nil_iff.mp (htargets a hsorted) e hmem
    simp [resolve, hcut] at hresolve
  have hsort : ∀ r m', ¬ Returns (dagTopologicalSort g) m₁ r m' := by
    intro r m' hr'
    simp only [dagTopologicalSort, dagVerticesWithNoIncommingEdges, returns_bind] at hr'
    obtain ⟨Q, t, hQ, L', m₂, hloop, -⟩ := hr'
    obtain ⟨rfl, ht⟩ := hQ.unique (withoutIncommingEdges_returns ho.live)
    rw [ht] at hloop
    have hqueue : ∀ b ∈ g.graph, m₁.count b = 0 ↔ b ∈ L := by simpa using h.kahn.zero
    refine sortLoop_stuck (fun b hb => ?_) (List.mem_filter.mpr ⟨ha, ?_⟩) hleft _ _ _ hloop
    · obtain ⟨hbg, hzero⟩ := List.mem_filter.mp hb
      exact htargets b ((hqueue b hbg).mp (of_decide_eq_true hzero))
    · exact decide_eq_true ((hqueue a ha).mpr hsorted)
  refine ⟨_, m₁, hr, fun hsame => ?_, spent_of_not_clones ho hu hsort hclone⟩
  have htarget := (h.frame.targets hsame).symm.trans (htargets a hsorted)
  have hlength := hg.edges_length ha
  rw [htarget, List.length_nil] at hlength
  exact hne (List.eq_nil_of_length_eq_zero hlength)

theorem dagTopologicalSort_query (hg : g.WellFormed m) :
    (g.SortIsQuery m ↔ ∀ a ∈ g.graph, m.edges a ≠ [] → BehindCycle (g.Connected m) a) ∧
    (g.Acyclic m → (g.SortIsQuery m ↔ ∀ a ∈ g.graph, m.edges a = [])) ∧
    (¬ g.SortIsQuery m → ∃ r m₁, Returns (dagTopologicalSort g) m r m₁ ∧ g.Spent m₁) := by
  have hiff : g.SortIsQuery m ↔ ∀ a ∈ g.graph, m.edges a ≠ [] → BehindCycle (g.Connected m) a := by
    constructor
    · rintro ⟨r, m₁, hr, hsame, -⟩ a ha hne
      by_contra hfree
      obtain ⟨r', m₁', hr', hdiff, -⟩ := sort_spends hg ha hne hfree
      obtain ⟨rfl, rfl⟩ := hr.unique hr'
      exact hdiff (hsame a ha).1
    · intro hcond
      obtain ⟨r, hr⟩ := dagTopologicalSort_edgeless hg fun a ha hzero => by
        by_contra hne
        exact not_behindCycle_of_count hg ha hzero (hcond a ha hne)
      exact ⟨r, m, hr, fun _ _ => ⟨rfl, rfl⟩, ⟨m, hr⟩, hg.usable⟩
  refine ⟨hiff, fun hac => ?_, fun hnot => ?_⟩
  · rw [hiff]
    have hfree := acyclic_iff_behind.mp hac
    constructor
    · intro h a ha
      by_contra hne
      exact hfree a (h a ha hne)
    · exact fun h a ha hne => absurd (h a ha) hne
  · rw [hiff] at hnot
    simp only [not_forall, exists_prop] at hnot
    obtain ⟨a, ha, hne, hfree⟩ := hnot
    obtain ⟨r, m₁, hr, -, hspent⟩ := sort_spends hg ha hne hfree
    exact ⟨r, m₁, hr, hspent⟩

theorem dagTopologicalSort_query_sample :
    (Sample.dag.SortIsQuery Sample.memory ↔ ∀ a ∈ Sample.dag.graph, Sample.memory.edges a ≠ [] →
      BehindCycle (Sample.dag.Connected Sample.memory) a) ∧
    (Sample.dag.Acyclic Sample.memory → (Sample.dag.SortIsQuery Sample.memory ↔
      ∀ a ∈ Sample.dag.graph, Sample.memory.edges a = [])) ∧
    (¬ Sample.dag.SortIsQuery Sample.memory →
      ∃ r m₁, Returns (dagTopologicalSort Sample.dag) Sample.memory r m₁ ∧ Sample.dag.Spent m₁) :=
  dagTopologicalSort_query Sample.wellFormed

theorem dagTopologicalSort_query_fails :
    Sample.dag.WellFormed Sample.memory ∧ Sample.dag.Acyclic Sample.memory ∧
    ∃ r m₁, Returns (dagTopologicalSort Sample.dag) Sample.memory r m₁ ∧
      (Sample.memory.targets 0 = [1] ∧ m₁.targets 0 = []) ∧ (Sample.memory.count 1 = 1 ∧ m₁.count 1 = 0) ∧
      (dagTopologicalSort Sample.dag).run m₁ = .error .assertion ∧
      Sample.dag.clone.run m₁ = .error .nullDereference := by
  refine ⟨Sample.wellFormed, Sample.acyclic, _, _, rfl, ?_, ?_, rfl, rfl⟩
  · decide
  · decide

end DAG

end DagScheduler.Graphs

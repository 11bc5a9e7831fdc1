import DagScheduler.GraphProofs.CloneProofs
import DagScheduler.GraphProofs.SortProofs

/-! The guard of `connect`: the edge is tried on a clone, which is sorted and thrown away. -/

namespace DagScheduler.Graphs

open Library Library.Programs Library.Digraphs

variable {σ π : Type} {m m' m'' : Memory σ π} {g g' : DAG} {a b x y : Addr} {v w : DAGVertex σ π}
  {φ : Addr → Addr} {V : List Addr}

/-- Every vertex that was there still is, and no other. -/
structure Untouched (m m' : Memory σ π) : Prop where
  cell : ∀ a, m'.vertices.cell a = m.vertices.cell a
  next : m.vertices.next ≤ m'.vertices.next
  wrapped : m'.wrapped = m.wrapped

namespace Untouched

lemma refl (m : Memory σ π) : Untouched m m := ⟨fun _ => rfl, le_refl _, rfl⟩

lemma trans (h : Untouched m m') (h' : Untouched m' m'') : Untouched m m'' where
  cell a := (h'.cell a).trans (h.cell a)
  next := h.next.trans h'.next
  wrapped := h'.wrapped.trans h.wrapped

lemma vertex (h : Untouched m m') (a : Addr) : m'.vertex a = m.vertex a :=
  SharedHeap.value_of_cell_eq (h.cell a)

lemma owners (h : Untouched m m') (a : Addr) : m'.vertices.owners a = m.vertices.owners a :=
  SharedHeap.owners_of_cell_eq (h.cell a)

lemma live (h : Untouched m m') (a : Addr) : m'.Live a ↔ m.Live a := by
  simp only [Memory.Live, h.vertex]

lemma edges (h : Untouched m m') (a : Addr) : m'.edges a = m.edges a := by
  simp only [Memory.edges, h.vertex]

lemma uuid (h : Untouched m m') (a : Addr) : m'.uuid a = m.uuid a := by
  simp only [Memory.uuid, h.vertex]

lemma count (h : Untouched m m') : m'.count = m.count := by
  funext a
  simp only [Memory.count, h.vertex]

lemma connection (h : Untouched m m') (e : DAGEdge) : m'.connection e = m.connection e := by
  simp only [Memory.connection, h.vertex]

lemma targets (h : Untouched m m') : m'.targets = m.targets := by
  funext a
  simp only [Memory.targets, h.edges, funext h.connection]

end Untouched

namespace DAG

def resolvedWith (g : DAG) (m : Memory σ π) (a b u v : Addr) : Prop :=
  Edge g.graph (g.resolved m) u v ∨ (u = a ∧ v = b)

lemma mem_of_mem_resolved (h : y ∈ g.resolved m x) : y ∈ g.graph := by
  obtain ⟨e, -, he⟩ := List.mem_filterMap.mp h
  obtain ⟨c, -, hc⟩ := Option.bind_eq_some_iff.mp he
  exact List.mem_of_find?_eq_some hc

lemma resolvedWith_mem (ha : a ∈ g.graph) (hb : b ∈ g.graph) :
    ∀ u v, g.resolvedWith m a b u v → u ∈ g.graph ∧ v ∈ g.graph := by
  rintro u v (⟨hu, hv⟩ | ⟨rfl, rfl⟩)
  · exact ⟨hu, mem_of_mem_resolved hv⟩
  · exact ⟨ha, hb⟩

/-- A graph that nobody else owns leaves no trace when it is destroyed. -/
lemma untouched_release (hV : V.Nodup) (hfresh : ∀ a ∈ V, m.vertices.next ≤ a)
    (howners : ∀ a ∈ V, m'.vertices.owners a ≤ 1)
    (hold : ∀ a, a < m.vertices.next → m'.vertices.cell a = m.vertices.cell a)
    (hrest : ∀ a, m.vertices.next ≤ a → a ∉ V → m'.vertices.cell a = none)
    (hnext : m.vertices.next ≤ m'.vertices.next) (hw : m'.wrapped = m.wrapped) :
    Untouched m (m'.release V) where
  cell a := by
    by_cases ha : a ∈ V
    · rw [m.vertices.unused a (hfresh a ha)]
      exact m'.vertices.cell_releaseAll_last hV ha (howners a ha)
    · have hsame : (m'.release V).vertices.cell a = m'.vertices.cell a :=
        m'.vertices.cell_releaseAll_of_notMem ha
      rw [hsame]
      by_cases hlt : a < m.vertices.next
      · exact hold a hlt
      · have hle := Nat.le_of_not_lt hlt
        rw [hrest a hle ha, m.vertices.unused a hle]
  next := by
    have hn : (m'.release V).vertices.next = m'.vertices.next := m'.vertices.next_releaseAll _
    rw [hn]
    exact hnext
  wrapped := hw

variable [TaskStage σ] [TaskCallbackPlugin π]

lemma IsClone.edge_iff (h : IsClone g m φ g' m') (ha : a ∈ g.graph)
    (ht : m''.targets = Function.update m'.targets (φ a) (extend (m'.targets (φ a)) [φ b])) :
    Edge g'.graph m''.targets x y ↔ ∃ u v, g.resolvedWith m a b u v ∧ φ u = x ∧ φ v = y := by
  have hsucc : ∀ u ∈ g.graph, y ∈ m''.targets (φ u) ↔
      (∃ v ∈ g.resolved m u, φ v = y) ∨ (u = a ∧ φ b = y) := by
    intro u hu
    rw [ht]
    by_cases hua : u = a
    · subst hua
      simp [Function.update_self, h.targets u hu, mem_extend, eq_comm]
    · have hne : φ u ≠ φ a := fun he => hua (h.copied.injective u hu a ha he)
      simp [Function.update_of_ne hne, h.targets u hu, mem_extend, hua]
  constructor
  · rintro ⟨hx, hy⟩
    rw [h.graph] at hx
    obtain ⟨u, hu, rfl⟩ := List.mem_map.mp hx
    rcases (hsucc u hu).mp hy with ⟨v, hv, rfl⟩ | ⟨rfl, rfl⟩
    · exact ⟨u, v, .inl ⟨hu, hv⟩, rfl, rfl⟩
    · exact ⟨u, b, .inr ⟨rfl, rfl⟩, rfl, rfl⟩
  · rintro ⟨u, v, huv, rfl, rfl⟩
    have hu : u ∈ g.graph := by
      rcases huv with ⟨hu, -⟩ | ⟨rfl, -⟩
      · exact hu
      · exact ha
    refine ⟨h.graph ▸ List.mem_map_of_mem hu, (hsucc u hu).mpr ?_⟩
    rcases huv with ⟨-, hv⟩ | ⟨rfl, rfl⟩
    · exact .inl ⟨v, hv, rfl⟩
    · exact .inr ⟨rfl, rfl⟩

lemma IsClone.acyclic_iff (h : IsClone g m φ g' m') (ha : a ∈ g.graph) (hb : b ∈ g.graph)
    (ht : m''.targets = Function.update m'.targets (φ a) (extend (m'.targets (φ a)) [φ b])) :
    Digraphs.Acyclic (Edge g'.graph m''.targets) ↔ Digraphs.Acyclic (g.resolvedWith m a b) :=
  acyclic_image_iff (S := {u | u ∈ g.graph}) (fun _ hu _ hv huv => h.copied.injective _ hu _ hv huv)
    (resolvedWith_mem ha hb) (fun _ _ => h.edge_iff ha ht)

lemma untouched_destroy (h : Copied V φ m m') (hV : V.Nodup) (hw : m'.wrapped = m.wrapped) :
    Untouched m (m'.release (V.map φ)) := by
  refine untouched_release (hV.map_on h.injective) ?_ ?_ h.old h.rest h.next hw
  · intro a ha
    obtain ⟨u, hu, rfl⟩ := List.mem_map.mp ha
    exact h.fresh u hu
  · intro a ha
    obtain ⟨u, hu, rfl⟩ := List.mem_map.mp ha
    exact (h.owners u hu).le

lemma IsClone.addVertex_returns (h : IsClone g m φ g' m') (ho : g.Owned m) (ha : a ∈ g.graph)
    (hv : m.vertex a = some v) : Returns (g'.addVertex v.clone) m' (false, g', v.clone) m' := by
  have hmem : φ a ∈ g'.graph := h.graph ▸ List.mem_map_of_mem ha
  have huuid : m'.uuid (φ a) = some v.uuid :=
    (h.copied.uuid ha (ho.live a ha)).trans (uuid_of_vertex hv)
  exact addVertex_kept h.wellFormed.toOwned ⟨φ a, hmem, huuid⟩

lemma IsClone.findVertex_returns (h : IsClone g m φ g' m') (ho : g.Owned m) (ha : a ∈ g.graph)
    (hv : m.vertex a = some v) : Returns (g'.findVertex v.clone) m' (some (φ a)) m' := by
  have hmem : φ a ∈ g'.graph := h.graph ▸ List.mem_map_of_mem ha
  have huuid : m'.uuid (φ a) = some v.uuid :=
    (h.copied.uuid ha (ho.live a ha)).trans (uuid_of_vertex hv)
  exact findVertex_self h.wellFormed.toOwned h.wellFormed.uuids hmem huuid

lemma connectionWouldMakeCyclic_returns (ho : g.Owned m) (hu : g.DistinctUuids m) (hk : g.Known m)
    (hc : g.jsonConfig.isSome) (hres : g.Resolves m) (ha : a ∈ g.graph) (hb : b ∈ g.graph)
    (hv : m.vertex a = some v) (hw : m.vertex b = some w) :
    ∃ r m', Returns (g.connectionWouldMakeCyclic v w) m r m' ∧ Untouched m m' ∧
      (r = false ↔ Digraphs.Acyclic (g.resolvedWith m a b)) := by
  obtain ⟨g', m₁, hr₁, h⟩ := clone_returns ho hu hk hc hres
  have hφa : g.copyAt m a ∈ g'.graph := h.graph ▸ List.mem_map_of_mem ha
  have hφb : g.copyAt m b ∈ g'.graph := h.graph ▸ List.mem_map_of_mem hb
  obtain ⟨r, m₂, hr₂, hg₂, hf₂, hw₂, ht₂⟩ := h.wellFormed.connect hφa hφb
  obtain ⟨L, sorted, m₃, hr₃, hf₃, hw₃, hkahn, -⟩ :=
    dagTopologicalSort_returns hg₂.toOwned hg₂.inside hg₂.counted
  have hcopied : Copied g.graph (g.copyAt m) m m₃ := (h.copied.frame (h.graph ▸ hf₂)).frame (h.graph ▸ hf₃)
  have hdestroy := untouched_destroy hcopied ho.nodup (hw₃.trans (hw₂.trans h.wrapped))
  rw [← h.graph] at hdestroy
  refine ⟨L.length != g'.graph.length, _, ?_, hdestroy, ?_⟩
  · simp only [connectionWouldMakeCyclic, returns_bind]
    refine ⟨g', m₁, hr₁, _, m₁, h.addVertex_returns ho ha hv, _, m₁, h.addVertex_returns ho hb hw,
      _, m₁, h.findVertex_returns ho ha hv, _, m₁, h.findVertex_returns ho hb hw, ?_⟩
    simp only [returns_bind, destroy, returns_modify, returns_pure]
    exact ⟨r, m₂, hr₂, _, m₃, hr₃, (), _, rfl, rfl, rfl⟩
  · rw [← h.acyclic_iff ha hb ht₂, ← hkahn.length_eq_iff hg₂.nodup hg₂.inside.closed]
    simp

lemma connectionWouldMakeCyclic_unique (ho : g.Owned m) (hu : g.DistinctUuids m) (hk : g.Known m)
    (ha : a ∈ g.graph) (hb : b ∈ g.graph) (hv : m.vertex a = some v) (hw : m.vertex b = some w)
    {r : Bool} (hr : Returns (g.connectionWouldMakeCyclic v w) m r m') :
    Untouched m m' ∧ (r = false ↔ Digraphs.Acyclic (g.resolvedWith m a b)) := by
  have hclone := hr
  rw [connectionWouldMakeCyclic, returns_bind] at hclone
  obtain ⟨g', m₁, hr₁, -⟩ := hclone
  obtain ⟨hres, hc⟩ := clone_resolves ho hu hk hr₁
  obtain ⟨r', m₂, hr₂, hm, hiff⟩ := connectionWouldMakeCyclic_returns ho hu hk hc hres ha hb hv hw
  obtain ⟨rfl, rfl⟩ := hr.unique hr₂
  exact ⟨hm, hiff⟩

lemma connect_cases (ho : g.Owned m) (hu : g.DistinctUuids m) (hk : g.Known m) {reply : Reply σ π}
    (hr : Returns (g.connect v w) m reply m') :
    Untouched m m' ∨ ∃ a ∈ g.graph, ∃ b ∈ g.graph, ∃ m₁, Untouched m m₁ ∧ m' = m₁.addEdge a b ∧
      b ∉ m.targets a ∧ Digraphs.Acyclic (g.resolvedWith m a b) := by
  simp only [connect, returns_bind] at hr
  obtain ⟨x, _, hx, y, _, hy, hr⟩ := hr
  obtain ⟨hx, rfl⟩ := (returns_findVertex ho).mp hx
  obtain ⟨hy, rfl⟩ := (returns_findVertex ho).mp hy
  cases x with
  | none =>
    obtain ⟨-, rfl⟩ := returns_pure.mp hr
    exact .inl (Untouched.refl _)
  | some a =>
    cases y with
    | none =>
      obtain ⟨-, rfl⟩ := returns_pure.mp hr
      exact .inl (Untouched.refl _)
    | some b =>
      have ha : a ∈ g.graph := List.mem_of_find?_eq_some hx.symm
      have hb : b ∈ g.graph := List.mem_of_find?_eq_some hy.symm
      simp only [ha, hb, and_self, if_true, returns_bind, returns_deref] at hr
      obtain ⟨v', _, ⟨hv', rfl⟩, w', _, ⟨hw', rfl⟩, r, m₁, hcheck, hr⟩ := hr
      obtain ⟨hm, hiff⟩ := connectionWouldMakeCyclic_unique ho hu hk ha hb hv' hw' hcheck
      cases r with
      | true =>
        simp only [if_true, returns_bind, returns_deref, returns_pure] at hr
        obtain ⟨_, _, ⟨-, rfl⟩, _, _, ⟨-, rfl⟩, -, rfl⟩ := hr
        exact .inl hm
      | false =>
        simp only [Bool.false_eq_true, if_false, returns_bind, returns_pure] at hr
        obtain ⟨r', m₂, hconn, -, rfl⟩ := hr
        have hw₁ : m₁.vertex b = some w' := (hm.vertex b).trans hw'
        have hspec := connect_returns ((hm.live a).mpr (ho.live a ha)) hw₁
        split_ifs at hspec with hany
        · obtain ⟨-, rfl⟩ := hconn.unique hspec
          exact .inl hm
        · obtain ⟨-, rfl⟩ := hconn.unique hspec
          refine .inr ⟨a, ha, b, hb, m₁, hm, rfl, ?_, hiff.mp rfl⟩
          intro hba
          rw [← hm.targets] at hba
          exact hany (any_leadsTo.mpr ⟨b, hba, w', hw₁, w'.eq_self⟩)

end DAG

end DagScheduler.Graphs

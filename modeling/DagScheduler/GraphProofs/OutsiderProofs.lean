import DagScheduler.GraphProofs.ConnectProofs
import DagScheduler.GraphProofs.IntegrityProofs

/-! The check of `connect` asked about vertices that the graph may not have. -/

namespace DagScheduler.Graphs.DAG

open Library Library.Programs Library.Digraphs Relation

variable {σ π : Type} {m m' m'' : Memory σ π} {g g' : DAG} {a b x y : Addr} {v w v1 v2 : DAGVertex σ π}
  {φ : Addr → Addr}

/-- A graph without cycles that lives only on vertices made since `m`. -/
structure Trial (m : Memory σ π) (g' : DAG) (m' : Memory σ π) : Prop where
  wellFormed : g'.WellFormed m'
  acyclic : g'.Acyclic m'
  old : ∀ a, a < m.vertices.next → m'.vertices.cell a = m.vertices.cell a
  fresh : ∀ a ∈ g'.graph, m.vertices.next ≤ a
  owners : ∀ a ∈ g'.graph, m'.vertices.owners a = 1
  rest : ∀ b, m.vertices.next ≤ b → b ∉ g'.graph → m'.vertices.cell b = none
  next : m.vertices.next ≤ m'.vertices.next
  wrapped : m'.wrapped = m.wrapped

namespace Trial

lemma destroy (h : Trial m g' m') (hf : Frame (· ∈ g'.graph) m' m'') (hw : m''.wrapped = m'.wrapped) :
    Untouched m (m''.release g'.graph) := by
  have hlt {c : Addr} (hc : c < m.vertices.next) : c ∉ g'.graph :=
    fun hin => absurd (h.fresh c hin) (Nat.not_le.mpr hc)
  refine untouched_release h.wellFormed.nodup h.fresh ?_ ?_ ?_ (h.next.trans hf.next.ge) (hw.trans h.wrapped)
  · intro c hc
    rw [hf.owners, h.owners c hc]
  · exact fun c hc => (hf.cell c (hlt hc)).trans (h.old c hc)
  · exact fun c hc hn => (hf.cell c hn).trans (h.rest c hc hn)

lemma base (h : Trial m g' m') : g'.Base m' :=
  ⟨h.wellFormed.nodup, h.owners, h.wellFormed.uuids, h.wellFormed.toClonable.known, h.wellFormed.config⟩

lemma vertex (h : Trial m g' m') (hv : v.Disconnected)
    (hnew : g'.graph.find? (fun a => m'.uuid a = some v.uuid) = none) :
    Trial m { g' with graph := g'.graph ++ [m'.vertices.next] }
      { m' with vertices := m'.vertices.makeShared v } := by
  have hkept := kept_makeShared m' v
  have hn : ∀ a ∈ g'.graph, m'.uuid a ≠ some v.uuid := fun a ha hau =>
    List.find?_eq_none.mp hnew a ha (by simpa using hau)
  refine ⟨h.wellFormed.addVertex hv hn, ?_, ?_, ?_, ?_, ?_, h.next.trans hkept.next, h.wrapped⟩
  · rw [DAG.Acyclic, h.wellFormed.toClonable.connected_addVertex hv]
    exact h.acyclic
  · exact fun a ha => (hkept.cell a (ha.trans_le h.next)).trans (h.old a ha)
  · intro a ha
    rcases List.mem_append.mp ha with ha | ha
    · exact h.fresh a ha
    · rw [List.mem_singleton.mp ha]
      exact h.next
  · intro a ha
    rcases List.mem_append.mp ha with ha | ha
    · exact (hkept.owners (h.base.lt ha)).trans (h.owners a ha)
    · rw [List.mem_singleton.mp ha]
      simp [SharedHeap.owners]
  · intro b hb hnot
    obtain ⟨hbg, hbn⟩ : b ∉ g'.graph ∧ b ≠ m'.vertices.next := by simpa using hnot
    exact (m'.vertices.cell_makeShared_ne v hbn).trans (h.rest b hb hbg)

lemma connected_vertex (h : Trial m g' m') (hv : v.Disconnected) :
    Connected { g' with graph := g'.graph ++ [m'.vertices.next] }
      { m' with vertices := m'.vertices.makeShared v } = g'.Connected m' :=
  h.wellFormed.toClonable.connected_addVertex hv

lemma returns_keep (h : Trial m g' m') (hold : g'.graph.find? (fun a => m'.uuid a = some v.uuid) = some a) :
    Returns (g'.addVertex v) m' (false, g', v) m' :=
  addVertex_kept h.wellFormed.toOwned ⟨a, List.mem_of_find?_eq_some hold, by simpa using List.find?_some hold⟩

lemma returns_add (h : Trial m g' m') (hnew : g'.graph.find? (fun a => m'.uuid a = some v.uuid) = none) :
    Returns (g'.addVertex v) m' (true, { g' with graph := g'.graph ++ [m'.vertices.next] }, DAGVertex.moved)
      { m' with vertices := m'.vertices.makeShared v } := by
  apply addVertex_new h.wellFormed.toOwned
  rintro ⟨a, ha, hau⟩
  exact List.find?_eq_none.mp hnew a ha (by simpa using hau)

lemma find_vertex (h : Trial m g' m') (v : DAGVertex σ π) (u : UUID) :
    (g'.graph ++ [m'.vertices.next]).find?
        (fun a => ({ m' with vertices := m'.vertices.makeShared v } : Memory σ π).uuid a = some u) =
      (g'.graph.find? fun a => m'.uuid a = some u).or (if v.uuid = u then some m'.vertices.next else none) := by
  rw [List.find?_append]
  congr 1
  · apply List.find?_congr
    intro a ha
    rw [(kept_makeShared m' v).uuid (h.base.lt ha)]
  · rw [List.find?_singleton, uuid_of_vertex (vertex_makeShared_self m' v)]
    simp

variable [TaskStage σ] [TaskCallbackPlugin π]

lemma check (h : Trial m g' m') (hx : x ∈ g'.graph) (hy : y ∈ g'.graph) :
    ∃ r m'', Returns (do
      let _ ← DAGVertex.connect x y
      let (ret, _) ← dagTopologicalSort g'
      g'.destroy
      pure ret) m' r m'' ∧ Untouched m m'' ∧ (r = true ↔ Closes (g'.Connected m') (x, y)) := by
  obtain ⟨c, m₁, hr₁, hg₁, hf₁, hw₁, ht₁⟩ := h.wellFormed.connect hx hy
  obtain ⟨L, sorted, m₂, hr₂, hf₂, hw₂, hkahn, -⟩ :=
    dagTopologicalSort_returns hg₁.toOwned hg₁.inside hg₁.counted
  refine ⟨L.length != g'.graph.length, _, ?_, h.destroy (hf₁.trans hf₂) (hw₂.trans hw₁), ?_⟩
  · simp only [returns_bind, DAG.destroy, returns_modify, returns_pure]
    exact ⟨c, m₁, hr₁, _, m₂, hr₂, (), _, rfl, rfl, rfl⟩
  · have hedges : Edge g'.graph m₁.targets = withEdges (g'.Connected m') [(x, y)] := by
      funext u w
      rw [connected_eq h.wellFormed.inside.closed, ht₁]
      simp only [Edge, withEdges, List.mem_singleton, Prod.mk.injEq, eq_iff_iff]
      by_cases hu : u = x
      · subst hu
        simp [hx, mem_extend]
      · simp [hu]
    rw [bne_iff_ne, ne_eq, hkahn.length_eq_iff hg₁.nodup hg₁.inside.closed, hedges, h.acyclic.withEdge_iff, not_not]

end Trial

variable [TaskStage σ] [TaskCallbackPlugin π]

lemma IsClone.connected_image (h : IsClone g m φ g' m') (hg : g.WellFormed m) :
    g'.Connected m' x y ↔ ∃ u v, g.Connected m u v ∧ φ u = x ∧ φ v = y := by
  rw [connected_iff h.wellFormed.inside.closed]
  constructor
  · rintro ⟨hx, hy⟩
    rw [h.graph] at hx
    obtain ⟨u, hu, rfl⟩ := List.mem_map.mp hx
    rw [h.targets_eq hg hu] at hy
    obtain ⟨v, hv, rfl⟩ := List.mem_map.mp hy
    exact ⟨u, v, ⟨hu, hg.inside.closed u hu v hv, hv⟩, rfl, rfl⟩
  · rintro ⟨u, v, ⟨hu, -, hv⟩, rfl, rfl⟩
    refine ⟨h.graph ▸ List.mem_map_of_mem hu, ?_⟩
    rw [h.targets_eq hg hu]
    exact List.mem_map_of_mem hv

lemma IsClone.injOn (h : IsClone g m φ g' m') : Set.InjOn φ {a | a ∈ g.graph} :=
  fun _ ha _ hb hab => h.copied.injective _ ha _ hb hab

lemma IsClone.closes_iff (h : IsClone g m φ g' m') (hg : g.WellFormed m) (ha : a ∈ g.graph) (hb : b ∈ g.graph) :
    Closes (g'.Connected m') (φ a, φ b) ↔ Closes (g.Connected m) (a, b) :=
  reach_image_iff h.injOn (fun _ _ huv => ⟨huv.1, huv.2.1⟩) (fun _ _ => h.connected_image hg) hb ha

lemma IsClone.trial (h : IsClone g m φ g' m') (hg : g.WellFormed m) (hac : g.Acyclic m) : Trial m g' m' where
  wellFormed := h.wellFormed
  acyclic := (acyclic_image_iff h.injOn (fun _ _ huv => ⟨huv.1, huv.2.1⟩) fun _ _ => h.connected_image hg).mpr hac
  old := h.copied.old
  fresh := by
    intro b hb
    rw [h.graph] at hb
    obtain ⟨a, ha, rfl⟩ := List.mem_map.mp hb
    exact h.copied.fresh a ha
  owners := by
    intro b hb
    rw [h.graph] at hb
    obtain ⟨a, ha, rfl⟩ := List.mem_map.mp hb
    exact h.copied.owners a ha
  rest b hb hn := h.copied.rest b hb (h.graph ▸ hn)
  next := h.copied.next
  wrapped := h.wrapped

/-! The four ways in which two vertices can be in the graph or not. -/

section Lookup

variable {gc g1 g2 : DAG} {mc m1 m2 : Memory σ π} {b1 b2 : Bool} {c1 c2 : DAGVertex σ π}

lemma check_found (hc : Returns g.clone m gc mc) (h1 : Returns (gc.addVertex v1.clone) mc (b1, g1, c1) m1)
    (h2 : Returns (g1.addVertex v2.clone) m1 (b2, g2, c2) m2) (ht : Trial m g2 m2)
    (hx : g2.graph.find? (fun a => m2.uuid a = some c1.uuid) = some x)
    (hy : g2.graph.find? (fun a => m2.uuid a = some c2.uuid) = some y) :
    ∃ r m', Returns (g.connectionWouldMakeCyclic v1 v2) m r m' ∧ Untouched m m' ∧
      (r = true ↔ Closes (g2.Connected m2) (x, y)) := by
  obtain ⟨r, m', hr, hm, hiff⟩ := ht.check (List.mem_of_find?_eq_some hx) (List.mem_of_find?_eq_some hy)
  refine ⟨r, m', ?_, hm, hiff⟩
  rw [connectionWouldMakeCyclic, returns_bind]
  refine ⟨gc, mc, hc, returns_bind.mpr ⟨_, m1, h1, returns_bind.mpr ⟨_, m2, h2, returns_bind.mpr ⟨some x, m2, ?_,
    returns_bind.mpr ⟨some y, m2, ?_, hr⟩⟩⟩⟩⟩
  · exact (returns_findVertex ht.wellFormed.toOwned).mpr ⟨hx.symm, rfl⟩
  · exact (returns_findVertex ht.wellFormed.toOwned).mpr ⟨hy.symm, rfl⟩

lemma check_missing (hc : Returns g.clone m gc mc) (h1 : Returns (gc.addVertex v1.clone) mc (b1, g1, c1) m1)
    (h2 : Returns (g1.addVertex v2.clone) m1 (b2, g2, c2) m2) (ht : Trial m g2 m2)
    (hmiss : g2.graph.find? (fun a => m2.uuid a = some c1.uuid) = none ∨
      g2.graph.find? (fun a => m2.uuid a = some c2.uuid) = none) (r : Bool) :
    ¬ Returns (g.connectionWouldMakeCyclic v1 v2) m r m' := by
  intro hr
  rw [connectionWouldMakeCyclic, returns_bind] at hr
  obtain ⟨_, _, hc', hr⟩ := hr
  obtain ⟨rfl, rfl⟩ := hc'.unique hc
  obtain ⟨_, _, h1', hr⟩ := returns_bind.mp hr
  obtain ⟨rfl, rfl⟩ := h1'.unique h1
  obtain ⟨_, _, h2', hr⟩ := returns_bind.mp hr
  obtain ⟨rfl, rfl⟩ := h2'.unique h2
  obtain ⟨_, _, hx, hr⟩ := returns_bind.mp hr
  obtain ⟨rfl, rfl⟩ := (returns_findVertex ht.wellFormed.toOwned).mp hx
  obtain ⟨_, _, hy, hr⟩ := returns_bind.mp hr
  obtain ⟨rfl, rfl⟩ := (returns_findVertex ht.wellFormed.toOwned).mp hy
  rcases hmiss with hmiss | hmiss
  · simp [hmiss] at hr
  · rw [hmiss] at hr
    split at hr
    · rename_i hnone
      exact absurd hnone (by simp)
    · exact returns_throw hr

end Lookup

omit [TaskStage σ] [TaskCallbackPlugin π] in
lemma find_of_not_has {u : UUID} (h : ¬ g.Has m u) : g.graph.find? (fun a => m.uuid a = some u) = none :=
  find_missing fun a ha he => h ⟨a, ha, he⟩

section Cases

variable {gc : DAG} {mc : Memory σ π} {u : UUID}

lemma IsClone.find_of_mem (h : IsClone g m φ gc mc) (hg : g.WellFormed m) (ha : a ∈ g.graph)
    (hu : m.uuid a = some u) : gc.graph.find? (fun b => mc.uuid b = some u) = some (φ a) := by
  rw [(h.renamesOf hg).find, find_uuid hg.uuids ha hu]
  rfl

lemma IsClone.find_of_not_has (h : IsClone g m φ gc mc) (hg : g.WellFormed m) (hu : ¬ g.Has m u) :
    gc.graph.find? (fun b => mc.uuid b = some u) = none := by
  rw [(h.renamesOf hg).find, DAG.find_of_not_has hu]
  rfl

lemma check_both (hg : g.WellFormed m) (hac : g.Acyclic m) (ha : a ∈ g.graph) (hb : b ∈ g.graph)
    (h1 : m.uuid a = some v1.uuid) (h2 : m.uuid b = some v2.uuid) :
    ∃ r m', Returns (g.connectionWouldMakeCyclic v1 v2) m r m' ∧ Untouched m m' ∧
      (r = true ↔ ReflTransGen (g.Connected m) b a) := by
  obtain ⟨gc, mc, hr, h⟩ := clone_returns hg.toOwned hg.uuids hg.toClonable.known hg.config hg.toClonable.resolves
  have ht := h.trial hg hac
  have hx := h.find_of_mem hg ha h1
  have hy := h.find_of_mem hg hb h2
  obtain ⟨r, m', hr', hm, hiff⟩ := check_found hr (ht.returns_keep hx) (ht.returns_keep hy) ht hx hy
  exact ⟨r, m', hr', hm, hiff.trans (h.closes_iff hg ha hb)⟩

lemma check_first (hg : g.WellFormed m) (hac : g.Acyclic m) (ha : a ∈ g.graph) (h1 : m.uuid a = some v1.uuid)
    (h2 : ¬ g.Has m v2.uuid) (hnull : v2.uuid ≠ .null) :
    (∀ z ∈ g.graph, m.uuid z = some .null →
      ∃ r m', Returns (g.connectionWouldMakeCyclic v1 v2) m r m' ∧ Untouched m m' ∧
        (r = true ↔ ReflTransGen (g.Connected m) z a)) ∧
    (¬ g.Has m .null → ∀ r m', ¬ Returns (g.connectionWouldMakeCyclic v1 v2) m r m') := by
  obtain ⟨gc, mc, hr, h⟩ := clone_returns hg.toOwned hg.uuids hg.toClonable.known hg.config hg.toClonable.resolves
  have ht := h.trial hg hac
  have hx := h.find_of_mem hg ha h1
  have hmiss := h.find_of_not_has hg h2
  have hd : v2.clone.Disconnected := ⟨rfl, rfl⟩
  have ht' := ht.vertex hd hmiss
  have hfind := ht.find_vertex v2.clone
  have hclone : v2.clone.uuid ≠ .null := hnull
  have hx' := (hfind v1.uuid).trans (by rw [hx, Option.some_or])
  have hy' := (hfind .null).trans (by rw [if_neg hclone, Option.or_none])
  constructor
  · intro z hz hzn
    rw [h.find_of_mem hg hz hzn] at hy'
    obtain ⟨r, m', hr', hm, hiff⟩ := check_found hr (ht.returns_keep hx) (ht.returns_add hmiss) ht' hx' hy'
    rw [ht.connected_vertex hd, h.closes_iff hg ha hz] at hiff
    exact ⟨r, m', hr', hm, hiff⟩
  · intro hno r m'
    rw [h.find_of_not_has hg hno] at hy'
    exact check_missing hr (ht.returns_keep hx) (ht.returns_add hmiss) ht' (.inr hy') r

lemma check_second (hg : g.WellFormed m) (hac : g.Acyclic m) (hb : b ∈ g.graph) (h2 : m.uuid b = some v2.uuid)
    (h1 : ¬ g.Has m v1.uuid) (hnull : v1.uuid ≠ .null) :
    (∀ z ∈ g.graph, m.uuid z = some .null →
      ∃ r m', Returns (g.connectionWouldMakeCyclic v1 v2) m r m' ∧ Untouched m m' ∧
        (r = true ↔ ReflTransGen (g.Connected m) b z)) ∧
    (¬ g.Has m .null → ∀ r m', ¬ Returns (g.connectionWouldMakeCyclic v1 v2) m r m') := by
  obtain ⟨gc, mc, hr, h⟩ := clone_returns hg.toOwned hg.uuids hg.toClonable.known hg.config hg.toClonable.resolves
  have ht := h.trial hg hac
  have hmiss := h.find_of_not_has hg h1
  have hd : v1.clone.Disconnected := ⟨rfl, rfl⟩
  have ht' := ht.vertex hd hmiss
  have hfind := ht.find_vertex v1.clone
  have hclone : v1.clone.uuid ≠ .null := hnull
  have hx' := (hfind .null).trans (by rw [if_neg hclone, Option.or_none])
  have hy' := (hfind v2.uuid).trans (by rw [h.find_of_mem hg hb h2, Option.some_or])
  constructor
  · intro z hz hzn
    rw [h.find_of_mem hg hz hzn] at hx'
    obtain ⟨r, m', hr', hm, hiff⟩ := check_found hr (ht.returns_add hmiss) (ht'.returns_keep hy') ht' hx' hy'
    rw [ht.connected_vertex hd, h.closes_iff hg hz hb] at hiff
    exact ⟨r, m', hr', hm, hiff⟩
  · intro hno r m'
    rw [h.find_of_not_has hg hno] at hx'
    exact check_missing hr (ht.returns_add hmiss) (ht'.returns_keep hy') ht' (.inl hx') r

lemma check_neither (hg : g.WellFormed m) (hac : g.Acyclic m) (h1 : ¬ g.Has m v1.uuid) (h2 : ¬ g.Has m v2.uuid)
    (hn1 : v1.uuid ≠ .null) (hn2 : v2.uuid ≠ .null) {r : Bool}
    (hr : Returns (g.connectionWouldMakeCyclic v1 v2) m r m') : r = true ↔ v1.uuid ≠ v2.uuid := by
  obtain ⟨gc, mc, hc, h⟩ := clone_returns hg.toOwned hg.uuids hg.toClonable.known hg.config hg.toClonable.resolves
  have ht := h.trial hg hac
  have hmiss := h.find_of_not_has hg h1
  have hd1 : v1.clone.Disconnected := ⟨rfl, rfl⟩
  have hd2 : v2.clone.Disconnected := ⟨rfl, rfl⟩
  have ht' := ht.vertex hd1 hmiss
  have hfind := ht.find_vertex v1.clone
  have hc1 : v1.clone.uuid ≠ .null := hn1
  have hc2 : v2.clone.uuid ≠ .null := hn2
  have hnull' := (hfind .null).trans (by rw [if_neg hc1, Option.or_none])
  by_cases hu : v1.uuid = v2.uuid
  · -- The second is dropped, as the first is there by now; it stands alone.
    have hy' := (hfind v2.uuid).trans (by
      rw [h.find_of_not_has hg h2, Option.none_or, if_pos (show v1.clone.uuid = v2.uuid from hu)])
    cases hz : gc.graph.find? fun a => mc.uuid a = some .null with
    | none =>
      rw [hz] at hnull'
      exact absurd hr (check_missing hc (ht.returns_add hmiss) (ht'.returns_keep hy') ht' (.inl hnull') r)
    | some z =>
      rw [hz] at hnull'
      obtain ⟨r', m₁, hr', -, hiff⟩ := check_found hc (ht.returns_add hmiss) (ht'.returns_keep hy') ht' hnull' hy'
      obtain ⟨rfl, -⟩ := hr.unique hr'
      refine hiff.trans (iff_of_false ?_ (not_not.mpr hu))
      rw [ht.connected_vertex hd1]
      intro hclose
      have hzg := List.mem_of_find?_eq_some hz
      rcases ReflTransGen.cases_head hclose with heq | ⟨c, hnc, -⟩
      · exact absurd (ht.base.lt hzg) (by rw [← show mc.vertices.next = z from heq]; exact Nat.lt_irrefl _)
      · exact absurd (ht.base.lt hnc.1) (Nat.lt_irrefl _)
  · have hne : v1.clone.uuid ≠ v2.uuid := hu
    have hmiss' := (hfind v2.uuid).trans (by rw [h.find_of_not_has hg h2, Option.none_or, if_neg hne])
    have ht'' := ht'.vertex hd2 hmiss'
    have hnull'' := (ht'.find_vertex v2.clone .null).trans (by rw [if_neg hc2, Option.or_none, hnull'])
    cases hz : gc.graph.find? fun a => mc.uuid a = some .null with
    | none =>
      rw [hz] at hnull''
      exact absurd hr (check_missing hc (ht.returns_add hmiss) (ht'.returns_add hmiss') ht'' (.inl hnull'') r)
    | some z =>
      rw [hz] at hnull''
      obtain ⟨r', m₁, hr', -, hiff⟩ :=
        check_found hc (ht.returns_add hmiss) (ht'.returns_add hmiss') ht'' hnull'' hnull''
      obtain ⟨rfl, -⟩ := hr.unique hr'
      exact hiff.trans (iff_of_true ReflTransGen.refl hu)

end Cases

def ChecksCycle (g : DAG) (m : Memory σ π) (v1 v2 : DAGVertex σ π) : Prop :=
  ∃ r m', Returns (g.connectionWouldMakeCyclic v1 v2) m r m' ∧ Untouched m m' ∧
    (r = true ↔ v1.uuid = v2.uuid ∨ ∃ a ∈ g.graph, ∃ b ∈ g.graph, m.uuid a = some v1.uuid ∧
      m.uuid b = some v2.uuid ∧ ReflTransGen (g.Connected m) b a)

/-- Both vertices are there; or one is, and there is a vertex with the null identifier to stand in for
the other one that would not be on a cycle with it. -/
def Answerable (g : DAG) (m : Memory σ π) (v1 v2 : DAGVertex σ π) : Prop :=
  (g.Has m v1.uuid ∧ g.Has m v2.uuid) ∨ ∃ z ∈ g.graph, m.uuid z = some .null ∧
    ((¬ g.Has m v2.uuid ∧ ∃ a ∈ g.graph, m.uuid a = some v1.uuid ∧ ¬ ReflTransGen (g.Connected m) z a) ∨
      (¬ g.Has m v1.uuid ∧ ∃ b ∈ g.graph, m.uuid b = some v2.uuid ∧ ¬ ReflTransGen (g.Connected m) b z))

omit [TaskStage σ] [TaskCallbackPlugin π] in
lemma WellFormed.at_unique (hg : g.WellFormed m) {u : UUID} (ha : a ∈ g.graph) (hb : b ∈ g.graph)
    (hau : m.uuid a = some u) (hbu : m.uuid b = some u) : a = b := hg.uuids a ha b hb (hau.trans hbu.symm)

omit [TaskStage σ] [TaskCallbackPlugin π] in
lemma checks_iff_null {p : Prog σ π Bool} {answer : Prop} {path : Addr → Prop} (hno : ¬ answer)
    (hsome : ∀ z ∈ g.graph, m.uuid z = some .null →
      ∃ r m', Returns p m r m' ∧ Untouched m m' ∧ (r = true ↔ path z))
    (hnone : ¬ g.Has m .null → ∀ r m', ¬ Returns p m r m') :
    (∃ r m', Returns p m r m' ∧ Untouched m m' ∧ (r = true ↔ answer)) ↔
      ∃ z ∈ g.graph, m.uuid z = some .null ∧ ¬ path z := by
  constructor
  · rintro ⟨r, m', hr, -, hiff⟩
    by_cases hz : g.Has m .null
    · obtain ⟨z, hz, hzn⟩ := hz
      obtain ⟨r', m'', hr', -, hiff'⟩ := hsome z hz hzn
      obtain ⟨rfl, rfl⟩ := hr.unique hr'
      exact ⟨z, hz, hzn, fun h => hno (hiff.mp (hiff'.mpr h))⟩
    · exact absurd hr (hnone hz r m')
  · rintro ⟨z, hz, hzn, hpath⟩
    obtain ⟨r, m', hr, hm, hiff⟩ := hsome z hz hzn
    exact ⟨r, m', hr, hm, hiff.trans (iff_of_false hpath hno)⟩

theorem connectionWouldMakeCyclic_right_iff (hg : g.WellFormed m) (hac : g.Acyclic m) (v1 v2 : DAGVertex σ π)
    (hn1 : v1.uuid ≠ .null) (hn2 : v2.uuid ≠ .null) : g.ChecksCycle m v1 v2 ↔ g.Answerable m v1 v2 := by
  by_cases h1 : g.Has m v1.uuid <;> by_cases h2 : g.Has m v2.uuid
  · refine iff_of_true ?_ (.inl ⟨h1, h2⟩)
    obtain ⟨a, ha, hau⟩ := h1
    obtain ⟨b, hb, hbu⟩ := h2
    obtain ⟨r, m', hr, hm, hiff⟩ := check_both hg hac ha hb hau hbu
    refine ⟨r, m', hr, hm, hiff.trans ⟨fun h => .inr ⟨a, ha, b, hb, hau, hbu, h⟩, ?_⟩⟩
    rintro (he | ⟨a', ha', b', hb', hau', hbu', h⟩)
    · obtain rfl := hg.at_unique ha hb hau (he ▸ hbu)
      exact .refl
    · obtain rfl := hg.at_unique ha ha' hau hau'
      obtain rfl := hg.at_unique hb hb' hbu hbu'
      exact h
  · obtain ⟨a, ha, hau⟩ := h1
    obtain ⟨hsome, hnone⟩ := check_first hg hac ha hau h2 hn2
    refine (checks_iff_null ?_ hsome hnone).trans ⟨?_, ?_⟩
    · rintro (he | ⟨-, -, b, hb, -, hbu, -⟩)
      · exact h2 ⟨a, ha, he ▸ hau⟩
      · exact h2 ⟨b, hb, hbu⟩
    · rintro ⟨z, hz, hzn, hza⟩
      exact .inr ⟨z, hz, hzn, .inl ⟨h2, a, ha, hau, hza⟩⟩
    · rintro (⟨-, h⟩ | ⟨z, hz, hzn, ⟨-, a', ha', hau', hza⟩ | ⟨h, -⟩⟩)
      · exact absurd h h2
      · obtain rfl := hg.at_unique ha ha' hau hau'
        exact ⟨z, hz, hzn, hza⟩
      · exact absurd ⟨a, ha, hau⟩ h
  · obtain ⟨b, hb, hbu⟩ := h2
    obtain ⟨hsome, hnone⟩ := check_second hg hac hb hbu h1 hn1
    refine (checks_iff_null ?_ hsome hnone).trans ⟨?_, ?_⟩
    · rintro (he | ⟨a, ha, -, -, hau, -⟩)
      · exact h1 ⟨b, hb, he ▸ hbu⟩
      · exact h1 ⟨a, ha, hau⟩
    · rintro ⟨z, hz, hzn, hbz⟩
      exact .inr ⟨z, hz, hzn, .inr ⟨h1, b, hb, hbu, hbz⟩⟩
    · rintro (⟨h, -⟩ | ⟨z, hz, hzn, ⟨h, -⟩ | ⟨-, b', hb', hbu', hbz⟩⟩)
      · exact absurd h h1
      · exact absurd ⟨b, hb, hbu⟩ h
      · obtain rfl := hg.at_unique hb hb' hbu hbu'
        exact ⟨z, hz, hzn, hbz⟩
  · refine iff_of_false ?_ ?_
    · rintro ⟨r, m', hr, -, hiff⟩
      have hwrong := (check_neither hg hac h1 h2 hn1 hn2 hr).symm.trans hiff
      by_cases he : v1.uuid = v2.uuid
      · exact absurd he (hwrong.mpr (.inl he))
      · rcases hwrong.mp he with he' | ⟨a, ha, -, -, hau, -⟩
        · exact he he'
        · exact h1 ⟨a, ha, hau⟩
    · rintro (⟨h, -⟩ | ⟨z, -, -, ⟨-, a, ha, hau, -⟩ | ⟨-, b, hb, hbu, -⟩⟩)
      · exact h1 h
      · exact h1 ⟨a, ha, hau⟩
      · exact h2 ⟨b, hb, hbu⟩

theorem connectionWouldMakeCyclic_right_iff_sample :
    Sample.dag.ChecksCycle Sample.memory (Sample.vertex 1 [] 0 Sample.task₁) (Sample.vertex 2 [] 0 Sample.task₂) ↔
      Sample.dag.Answerable Sample.memory (Sample.vertex 1 [] 0 Sample.task₁) (Sample.vertex 2 [] 0 Sample.task₂) :=
  connectionWouldMakeCyclic_right_iff Sample.wellFormed Sample.acyclic _ _ (by decide) (by decide)

/-- A vertex that is not there yet: the lookup of its copy finds nothing, and the result is used. -/
theorem connectionWouldMakeCyclic_fails :
    (Sample.dag.connectionWouldMakeCyclic (Sample.vertex 1 [] 0 Sample.task₁)
        (Sample.vertex 7 [] 0 Sample.task₂)).run Sample.memory = .error .nullDereference ∧
      ¬ Sample.dag.ChecksCycle Sample.memory (Sample.vertex 1 [] 0 Sample.task₁)
        (Sample.vertex 7 [] 0 Sample.task₂) := by
  have hrun : (Sample.dag.connectionWouldMakeCyclic (Sample.vertex 1 [] 0 Sample.task₁)
      (Sample.vertex 7 [] 0 Sample.task₂)).run Sample.memory = .error .nullDereference := by rfl
  refine ⟨hrun, ?_⟩
  rintro ⟨r, m', hr, -⟩
  rw [Returns, hrun] at hr
  exact absurd hr (by simp)

end DagScheduler.Graphs.DAG

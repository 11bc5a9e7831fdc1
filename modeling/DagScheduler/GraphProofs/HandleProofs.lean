import DagScheduler.GraphProofs.ComparisonProofs
import DagScheduler.GraphProofs.LabelProofs
import DagScheduler.GraphProofs.RunProofs

/-! Which vertex a handle stands for. Most calls go by its identifier; those that use `operator==`
also ask for the same state. -/

namespace DagScheduler.Graphs

open Library Library.Programs

variable {σ π : Type} {m m' : Memory σ π} {g : DAG} {a b : Addr} {v w h : DAGVertex σ π}

/-- What `operator==` compares besides the identifier. -/
structure DAGVertex.SameState (v w : DAGVertex σ π) : Prop where
  currentStatus : v.currentStatus = w.currentStatus
  label : v.label = w.label
  edges : v.edges.length = w.edges.length
  incommingEdgeCount : v.incommingEdgeCount = w.incommingEdgeCount

lemma DAGVertex.eq_iff_sameState (hu : v.uuid = w.uuid) : v.eq w = true ↔ v.SameState w := by
  rw [DAGVertex.eq_true_iff]
  constructor
  · rintro ⟨hs, -, hl, he, hc⟩
    exact ⟨hs, hl, he, hc⟩
  · rintro ⟨hs, hl, he, hc⟩
    exact ⟨hs, hu, hl, he, hc⟩

lemma DAGVertex.SameState.refl (v : DAGVertex σ π) : v.SameState v := ⟨rfl, rfl, rfl, rfl⟩

lemma DAGVertex.SameState.symm (hs : v.SameState w) : w.SameState v :=
  ⟨hs.currentStatus.symm, hs.label.symm, hs.edges.symm, hs.incommingEdgeCount.symm⟩

lemma DAGVertex.sameState_clone [TaskStage σ] [TaskCallbackPlugin π] :
    v.SameState v.clone ↔ v.edges = [] ∧ v.incommingEdgeCount = 0 := by
  constructor
  · exact fun hs => ⟨List.length_eq_zero_iff.mp hs.edges, hs.incommingEdgeCount⟩
  · rintro ⟨he, hc⟩
    exact ⟨rfl, rfl, by rw [he]; rfl, hc⟩

namespace DAG

lemma Decides.congr {V : List Addr} {p q : Addr → Bool} {found : Addr → Prog σ π Bool}
    (hd : Decides V m p found) (hpq : ∀ a ∈ V, p a = q a) : Decides V m q found := by
  have hafter : ∀ {l a s o}, V = l ++ a :: s → o ∈ s → p o = q o := fun hV ho =>
    hpq _ (hV ▸ List.mem_append_right _ (List.mem_cons_of_mem _ ho))
  have hat : ∀ {l a s}, V = l ++ a :: s → q a = true → p a = true := fun hV ha =>
    (hpq _ (hV ▸ List.mem_append_right _ List.mem_cons_self)).trans ha
  constructor
  · exact fun o ho => hpq o ho ▸ hd.before o ho
  · exact fun l a s m' hV ha hdet hown o ho => hafter hV ho ▸ hd.detached l a s m' hV (hat hV ha) hdet hown o ho
  · exact fun l a s m' hV ha hdet hown o ho =>
      hafter hV (List.mem_of_mem_tail ho) ▸ hd.released l a s m' hV (hat hV ha) hdet hown o ho

lemma returns_containsVertex (ho : g.Owned m) {r : Bool} : Returns (g.containsVertex v) m r m' ↔
    r = g.graph.any (fun a => m.uuid a = some v.uuid) ∧ m' = m := by
  have hany : (g.graph.find? fun a => m.uuid a = some v.uuid).isSome = g.graph.any fun a => m.uuid a = some v.uuid := by
    rw [Bool.eq_iff_iff, List.find?_isSome, List.any_eq_true]
  simp only [containsVertex, returns_bind, returns_findVertex ho, returns_pure, and_assoc, exists_and_left,
    exists_eq_left, hany]

lemma vertex_retain (held : List Addr) : (m.retain held).vertex a = m.vertex a := m.vertices.value_retainAll held a

lemma uuid_retain (held : List Addr) : (m.retain held).uuid a = m.uuid a := by
  rw [Memory.uuid, vertex_retain, Memory.uuid]

lemma live_retain (held : List Addr) : (m.retain held).Live a ↔ m.Live a := by
  rw [Memory.Live, vertex_retain, Memory.Live]

lemma shared_iff {held : List Addr} (hsole : m.vertices.owners a = 1) :
    1 < (m.retain held).vertices.owners a ↔ a ∈ held := by
  constructor
  · intro htwo
    by_contra ha
    have howners : (m.retain held).vertices.owners a = m.vertices.owners a :=
      SharedHeap.owners_of_cell_eq (m.vertices.cell_retainAll_of_notMem ha)
    omega
  · intro ha
    have hlt := m.vertices.owners_lt_retainAll ha (by omega)
    exact hsole ▸ hlt

def RemovesByUuid (g : DAG) (m : Memory σ π) (r : VertexRef σ π) (v : DAGVertex σ π) : Prop :=
  ∃ b g' m', Returns (g.removeVertex r) m (b, g') m' ∧ Returns (g.containsVertex v) m b m ∧
    Returns (g.removeVertexByUuid v.uuid) m (b, g') m'

/-- The vertex that has the identifier of `v`, if there is one, is in the state of `v`. -/
def Current (g : DAG) (m : Memory σ π) (v : DAGVertex σ π) : Prop :=
  ∀ a ∈ g.graph, ∀ w, m.vertex a = some w → w.uuid = v.uuid → w.SameState v

lemma removesByUuid_iff (ho : g.Owned m) (hu : g.DistinctUuids m) {r : VertexRef σ π}
    (hr : Returns r.read m v m) : g.RemovesByUuid m r v ↔ g.Current m v ∧ g.Outlives m r := by
  constructor
  · rintro ⟨b, g', m', hremove, hcontains, -⟩
    have hkept := outlives_of_returns ho hu hremove
    refine ⟨fun a ha w hw huw => ?_, hkept⟩
    obtain ⟨m₁, hr₁, -⟩ := removeVertex_returns ho hu hr hkept
    obtain ⟨hb, -⟩ := hremove.unique hr₁
    obtain ⟨hb', -⟩ := (returns_containsVertex ho).mp hcontains
    have hany : g.graph.any (fun a => m.uuid a = some v.uuid) = true :=
      List.any_eq_true.mpr ⟨a, ha, decide_eq_true (by rw [uuid_of_vertex hw, huw])⟩
    rw [← hb', (Prod.mk.inj hb).1, Bool.not_eq_true', List.isEmpty_eq_false_iff] at hany
    obtain ⟨c, hc⟩ := List.exists_mem_of_ne_nil _ hany
    obtain ⟨hcg, hmatch⟩ := List.mem_filter.mp hc
    obtain rfl := hu c hcg a ha (by rw [uuid_of_matches hmatch, uuid_of_vertex hw, huw])
    obtain ⟨w', hw', heq⟩ := (Option.any_eq_true _ _).mp hmatch
    obtain rfl := Option.some.inj (hw'.symm.trans hw)
    exact (DAGVertex.eq_iff_sameState huw).mp heq
  · rintro ⟨hcurrent, hkept⟩
    have hmatch : ∀ a ∈ g.graph, Matches m v a = decide (m.uuid a = some v.uuid) := by
      intro a ha
      obtain ⟨w, hw⟩ := Memory.live_iff.mp (ho.live a ha)
      rw [Bool.eq_iff_iff, decide_eq_true_iff]
      refine ⟨uuid_of_matches, fun huw => ?_⟩
      rw [uuid_of_vertex hw, Option.some.injEq] at huw
      simpa [Matches, hw] using (DAGVertex.eq_iff_sameState huw).mpr (hcurrent a ha w hw huw)
    obtain ⟨m', hret, -⟩ := eraseIf_returns ho (p := fun a => decide (m.uuid a = some v.uuid)) (by
      intro a ha b hb hua hub
      exact hu a ha b hb ((of_decide_eq_true hua).trans (of_decide_eq_true hub).symm))
    refine ⟨_, _, _, hret _ ((decides_matches ho hu hr hkept).congr hmatch), ?_, hret _ (decides_uuid ho v.uuid)⟩
    refine (returns_containsVertex ho).mpr ⟨?_, rfl⟩
    rw [Bool.eq_iff_iff, Bool.not_eq_true', List.isEmpty_eq_false_iff, List.any_eq_true, ne_eq,
      List.filter_eq_nil_iff]
    simp

lemma current_self (hu : g.DistinctUuids m) (ha : a ∈ g.graph) (hv : m.vertex a = some v) (hw : w.uuid = v.uuid) :
    g.Current m w ↔ v.SameState w := by
  constructor
  · exact fun hc => hc a ha v hv hw.symm
  · intro hs b hb x hx hux
    obtain rfl := hu b hb a ha (by rw [uuid_of_vertex hx, uuid_of_vertex hv, hux, hw])
    exact Option.some.inj (hv.symm.trans hx) ▸ hs

/-- `find_vertex(v1).lock()->contains_connection_to(v2)`. -/
def containsConnection (g : DAG) (v1 v2 : DAGVertex σ π) : Prog σ π Bool := do
  match ← g.findVertex v1 with
  | some a => DAGVertex.containsConnectionTo a v2
  | none => throw .nullDereference

def TestsAgree (g : DAG) (m : Memory σ π) (v1 v2 : DAGVertex σ π) (a b : Addr) : Prop :=
  ∃ r, Returns (g.containsConnection v1 v2) m r m ∧ Returns (g.areConnected v1 v2) m r m ∧
    (r = true ↔ g.Connected m a b)

lemma containsConnection_returns (hg : g.WellFormed m) (ha : a ∈ g.graph) (hb : b ∈ g.graph)
    (hv : m.uuid a = some v.uuid) (hw : m.vertex b = some w) (hh : h.uuid = w.uuid) :
    ∃ r, Returns (g.containsConnection v h) m r m ∧ (r = true ↔ g.Connected m a b ∧ w.SameState h) := by
  refine ⟨(m.edges a).any (m.leadsTo h), ?_, ?_⟩
  · simp only [containsConnection, returns_bind]
    exact ⟨some a, m, findVertex_self hg.toOwned hg.uuids ha hv,
      returns_containsConnectionTo.mpr ⟨hg.live a ha, rfl, rfl⟩⟩
  · rw [any_leadsTo]
    constructor
    · rintro ⟨c, hc, x, hx, heq⟩
      have hcb : m.uuid c = m.uuid b := by rw [uuid_of_vertex hx, uuid_of_vertex hw, ← hh, uuid_of_eq heq]
      obtain rfl := hg.uuids c (hg.inside.closed a ha c hc) b hb hcb
      obtain rfl := Option.some.inj (hx.symm.trans hw)
      exact ⟨⟨ha, hb, hc⟩, ((DAGVertex.eq_iff_sameState hh).mp heq).symm⟩
    · rintro ⟨⟨-, -, hab⟩, hs⟩
      exact ⟨b, hab, w, hw, (DAGVertex.eq_iff_sameState hh).mpr hs.symm⟩

lemma testsAgree_iff (hg : g.WellFormed m) (ha : a ∈ g.graph) (hb : b ∈ g.graph)
    (hv : m.uuid a = some v.uuid) (hw : m.vertex b = some w) (hh : h.uuid = w.uuid) :
    g.TestsAgree m v h a b ↔ (g.Connected m a b → w.SameState h) := by
  obtain ⟨r, hr, hiff⟩ := containsConnection_returns hg ha hb hv hw hh
  have hare := areConnected_returns hg ha hb hv ((uuid_of_vertex hw).trans (congrArg some hh.symm))
  have hconnected : decide (b ∈ m.targets a) = true ↔ g.Connected m a b := by
    simp [Connected, ha, hb]
  constructor
  · rintro ⟨r', hr', -, hedge⟩ hab
    obtain ⟨rfl, -⟩ := hr.unique hr'
    exact (hiff.mp (hedge.mpr hab)).2
  · intro hs
    have hsame : r = decide (b ∈ m.targets a) := by
      rw [Bool.eq_iff_iff, hiff, hconnected]
      exact ⟨fun hc => hc.1, fun hc => ⟨hc, hs hc⟩⟩
    exact ⟨_, hr, hsame ▸ hare, hsame ▸ hconnected⟩

/-- `contains_connection_to` misses an edge unless its handle is in the state of the target. A clone
never is, as it has no incoming edges. -/
theorem connection_tests (hg : g.WellFormed m) (ha : a ∈ g.graph) (hb : b ∈ g.graph)
    (hv : m.uuid a = some v.uuid) (hw : m.vertex b = some w) [TaskStage σ] [TaskCallbackPlugin π] :
    (∀ h : DAGVertex σ π, h.uuid = w.uuid →
      (g.TestsAgree m v h a b ↔ (g.Connected m a b → w.SameState h))) ∧
    g.TestsAgree m v w a b ∧ (g.TestsAgree m v w.clone a b ↔ ¬ g.Connected m a b) := by
  refine ⟨fun h hh => testsAgree_iff hg ha hb hv hw hh, ?_, ?_⟩
  · exact (testsAgree_iff hg ha hb hv hw rfl).mpr fun _ => .refl w
  · rw [testsAgree_iff (h := w.clone) hg ha hb hv hw rfl, DAGVertex.sameState_clone]
    refine imp_congr_right fun hab => iff_of_false ?_ id
    rintro ⟨-, hzero⟩
    have hpos : 0 < m.count b := by
      rw [hg.counted b hb]
      exact Library.Digraphs.inDegree_pos.mpr ⟨a, ha, hab.2.2⟩
    rw [count_of_vertex hw] at hpos
    omega

theorem connection_tests_sample :
    (∀ h : DAGVertex Unit Unit, h.uuid = (Sample.vertex 2 [] 1 Sample.task₂).uuid →
      (Sample.dag.TestsAgree Sample.memory (Sample.vertex 1 [] 0 Sample.task₁) h 0 1 ↔
        (Sample.dag.Connected Sample.memory 0 1 → (Sample.vertex 2 [] 1 Sample.task₂).SameState h))) ∧
    Sample.dag.TestsAgree Sample.memory (Sample.vertex 1 [] 0 Sample.task₁) (Sample.vertex 2 [] 1 Sample.task₂) 0 1 ∧
    (Sample.dag.TestsAgree Sample.memory (Sample.vertex 1 [] 0 Sample.task₁)
      (Sample.vertex 2 [] 1 Sample.task₂).clone 0 1 ↔ ¬ Sample.dag.Connected Sample.memory 0 1) :=
  connection_tests Sample.wellFormed (by decide) (by decide) (by decide) rfl

theorem connection_tests_fail :
    Sample.dag.WellFormed Sample.memory ∧ Sample.dag.Connected Sample.memory 0 1 ∧
    Sample.memory.vertex 1 = some (Sample.vertex 2 [] 1 Sample.task₂) ∧
    (∃ m', Returns (Sample.dag.containsConnection (Sample.vertex 1 [] 0 Sample.task₁)
      (Sample.vertex 2 [] 1 Sample.task₂).clone) Sample.memory false m') ∧
    ∃ m', Returns (Sample.dag.areConnected (Sample.vertex 1 [] 0 Sample.task₁)
      (Sample.vertex 2 [] 1 Sample.task₂).clone) Sample.memory true m' := by
  refine ⟨Sample.wellFormed, ⟨by decide, by decide, by decide⟩, rfl, ?_, ?_⟩
  · exact exists_returns_eq (by decide +kernel)
  · exact exists_returns_eq (by decide +kernel)

end DAG

variable {title : String} {config : Document} {es : List (Event σ π)} {x : World σ π}
  [TaskStage σ] [TaskCallbackPlugin π]

open DAG

/-- `remove_vertex` goes by the identifier just for handles that are in the state of their vertex; a
clone is only if its vertex has no edges. A reference to a vertex of the graph is, but the vertex must not
die before the last comparison: `held` are the owning pointers of the client. -/
theorem Run.removeVertex_by_uuid (run : Run (World.start title config m) es x) (hg : g ∈ x.dags) (held : List Addr) :
    (∀ (r : VertexRef σ π) v, Returns r.read (x.memory.retain held) v (x.memory.retain held) →
      (g.RemovesByUuid (x.memory.retain held) r v ↔
        g.Current (x.memory.retain held) v ∧ g.Outlives (x.memory.retain held) r)) ∧
    ∀ a ∈ g.graph, ∀ v, x.memory.vertex a = some v →
      (g.RemovesByUuid (x.memory.retain held) (.object a) v ↔
        a ∈ held ∨ ∀ l s, g.graph = l ++ a :: s → s.length ≤ 1) ∧
      (g.RemovesByUuid (x.memory.retain held) (.value v.clone) v.clone ↔ v.edges = [] ∧ v.incommingEdgeCount = 0) := by
  have hb := (run.apart (World.apart_start title config m)).base g hg
  have ho : g.Owned (x.memory.retain held) := ⟨hb.nodup, fun a ha => (live_retain held).mpr (hb.live ha)⟩
  have hu : g.DistinctUuids (x.memory.retain held) := by
    intro a ha b hb' hab
    rw [uuid_retain, uuid_retain] at hab
    exact hb.uuids a ha b hb' hab
  refine ⟨fun r v hr => removesByUuid_iff ho hu hr, fun a ha v hv => ⟨?_, ?_⟩⟩
  · have hv' : (x.memory.retain held).vertex a = some v := (vertex_retain held).trans hv
    have hread : Returns (VertexRef.object a).read (x.memory.retain held) v (x.memory.retain held) :=
      returns_deref.mpr ⟨hv', rfl⟩
    rw [removesByUuid_iff ho hu hread, current_self hu ha hv' rfl, and_iff_right (.refl v), Outlives,
      shared_iff (hb.sole a ha)]
    constructor
    · intro hkept
      by_cases hheld : a ∈ held
      · exact .inl hheld
      · exact .inr fun l s hgraph => (hkept l s hgraph).resolve_left hheld
    · rintro (hheld | hlast) l s hgraph
      · exact .inl hheld
      · exact .inr (hlast l s hgraph)
  · have hv' : (x.memory.retain held).vertex a = some v := (vertex_retain held).trans hv
    have hread : Returns (VertexRef.value v.clone).read (x.memory.retain held) v.clone (x.memory.retain held) :=
      returns_pure.mpr ⟨rfl, rfl⟩
    rw [removesByUuid_iff ho hu hread, current_self (w := v.clone) hu ha hv' rfl, DAGVertex.sameState_clone]
    exact and_iff_left trivial

/-- The client holds the second vertex only. -/
theorem Run.removeVertex_by_uuid_sample :
    Sample.connected.dags.length = 1 ∧ ∀ g ∈ Sample.connected.dags,
      (∀ (r : VertexRef Unit Unit) v,
        Returns r.read (Sample.connected.memory.retain [3]) v (Sample.connected.memory.retain [3]) →
          (g.RemovesByUuid (Sample.connected.memory.retain [3]) r v ↔
            g.Current (Sample.connected.memory.retain [3]) v ∧ g.Outlives (Sample.connected.memory.retain [3]) r)) ∧
      ∀ a ∈ g.graph, ∀ v, Sample.connected.memory.vertex a = some v →
        (g.RemovesByUuid (Sample.connected.memory.retain [3]) (.object a) v ↔
          a ∈ [3] ∨ ∀ l s, g.graph = l ++ a :: s → s.length ≤ 1) ∧
        (g.RemovesByUuid (Sample.connected.memory.retain [3]) (.value v.clone) v.clone ↔
          v.edges = [] ∧ v.incommingEdgeCount = 0) :=
  ⟨by decide +kernel, fun _ hg => Run.removeVertex_by_uuid Sample.run hg [3]⟩

namespace Sample

def connectedDag : DAG := connected.dags.head (by decide +kernel)

def first : DAGVertex Unit Unit := (connected.memory.vertex 2).get (by decide +kernel)

end Sample

theorem Run.removeVertex_by_uuid_fails :
    Run Sample.start Sample.events Sample.connected ∧ ∃ g ∈ Sample.connected.dags, ∃ a ∈ g.graph, ∃ v,
      Sample.connected.memory.vertex a = some v ∧
      (∃ g' m', Returns (g.removeVertex (.value v.clone)) Sample.connected.memory (false, g') m') ∧
      ∃ m', Returns (g.containsVertex v.clone) Sample.connected.memory true m' := by
  refine ⟨Sample.run, Sample.connectedDag, List.head_mem _, 2, by decide +kernel, Sample.first,
    (Option.some_get _).symm, ?_, ?_⟩
  · obtain ⟨⟨b, g'⟩, m', hr, hb⟩ := exists_returns
      (p := Sample.connectedDag.removeVertex (.value Sample.first.clone)) (s := Sample.connected.memory)
      (q := fun r => !r.1.1) (by decide +kernel)
    obtain rfl : b = false := by simpa using hb
    exact ⟨g', m', hr⟩
  · exact exists_returns_eq (by decide +kernel)

end DagScheduler.Graphs

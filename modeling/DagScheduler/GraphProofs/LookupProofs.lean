import DagScheduler.GraphProofs.LabelProofs

/-! What the calls do with identifiers that no vertex of the graph has. -/

namespace DagScheduler.Graphs.DAG

open Library Library.Programs

variable {σ π : Type} {m m' : Memory σ π} {g : DAG} {a b : Addr} {v v' w w' v1 v2 : DAGVertex σ π} {u1 u2 : UUID}

def HasEdge (g : DAG) (m : Memory σ π) (u1 u2 : UUID) : Prop :=
  ∃ a b, m.uuid a = some u1 ∧ m.uuid b = some u2 ∧ g.Connected m a b

def Both (g : DAG) (m : Memory σ π) (u1 u2 : UUID) : Prop := g.Has m u1 ∧ g.Has m u2

lemma not_both (hb : ¬ g.Both m u1 u2) :
    (∀ a ∈ g.graph, m.uuid a ≠ some u1) ∨ ∀ b ∈ g.graph, m.uuid b ≠ some u2 := by
  rcases not_and_or.mp hb with h | h
  · exact .inl fun a ha hau => h ⟨a, ha, hau⟩
  · exact .inr fun b hb hbu => h ⟨b, hb, hbu⟩

/-- The calls by identifier dereference what they find, whether they find it or not. -/
lemma returns_byUuid {α : Type} {k : DAGVertex σ π → DAGVertex σ π → Prog σ π α} (ho : g.Owned m)
    (hu : g.DistinctUuids m) {r : α} :
    Returns (do
      let v1Tmp ← g.findVertexByUuid u1
      let v2Tmp ← g.findVertexByUuid u2
      k (← derefLocked v1Tmp) (← derefLocked v2Tmp)) m r m' ↔
    ∃ a ∈ g.graph, ∃ b ∈ g.graph, ∃ v w, m.vertex a = some v ∧ m.vertex b = some w ∧ v.uuid = u1 ∧ w.uuid = u2 ∧
      Returns (k v w) m r m' := by
  simp only [returns_bind, returns_derefLocked]
  constructor
  · rintro ⟨x, _, hx, y, _, hy, v, _, ⟨a, rfl, hv, rfl⟩, w, _, ⟨b, rfl, hw, rfl⟩, hr⟩
    obtain ⟨hx, rfl⟩ := (returns_findVertexByUuid ho).mp hx
    obtain ⟨hy, rfl⟩ := (returns_findVertexByUuid ho).mp hy
    have hau := List.find?_some hx.symm
    have hbu := List.find?_some hy.symm
    simp only [uuid_of_vertex hv, uuid_of_vertex hw, Option.some.injEq, decide_eq_true_eq] at hau hbu
    exact ⟨a, List.mem_of_find?_eq_some hx.symm, b, List.mem_of_find?_eq_some hy.symm, v, w, hv, hw, hau, hbu, hr⟩
  · rintro ⟨a, ha, b, hb, v, w, hv, hw, rfl, rfl, hr⟩
    exact ⟨some a, m, findVertex_self ho hu ha (uuid_of_vertex hv), some b, m,
      findVertex_self ho hu hb (uuid_of_vertex hw), v, m, ⟨a, rfl, hv, rfl⟩, w, m, ⟨b, rfl, hw, rfl⟩, hr⟩

lemma Both.vertices (h : g.Both m u1 u2) (ho : g.Owned m) :
    ∃ a ∈ g.graph, ∃ b ∈ g.graph, ∃ v w, m.vertex a = some v ∧ m.vertex b = some w ∧ v.uuid = u1 ∧ w.uuid = u2 := by
  obtain ⟨⟨a, ha, hau⟩, b, hb, hbu⟩ := h
  obtain ⟨v, hv⟩ := Memory.live_iff.mp (ho.live a ha)
  obtain ⟨w, hw⟩ := Memory.live_iff.mp (ho.live b hb)
  rw [uuid_of_vertex hv, Option.some.injEq] at hau
  rw [uuid_of_vertex hw, Option.some.injEq] at hbu
  exact ⟨a, ha, b, hb, v, w, hv, hw, hau, hbu⟩

lemma both_of_vertices (ha : a ∈ g.graph) (hb : b ∈ g.graph) (hv : m.vertex a = some v) (hw : m.vertex b = some w) :
    g.Both m v.uuid w.uuid := ⟨⟨a, ha, uuid_of_vertex hv⟩, b, hb, uuid_of_vertex hw⟩

def TellsEdge (g : DAG) (m : Memory σ π) (u1 u2 : UUID) (call : Prog σ π Bool) : Prop :=
  ∃ r, Returns call m r m ∧ (r = true ↔ g.HasEdge m u1 u2)

lemma areConnected_tells (hg : g.WellFormed m) (ha : a ∈ g.graph) (hb : b ∈ g.graph)
    (hv : m.uuid a = some v.uuid) (hw : m.uuid b = some w.uuid) :
    g.TellsEdge m v.uuid w.uuid (g.areConnected v w) := by
  refine ⟨_, areConnected_returns hg ha hb hv hw, ?_⟩
  rw [decide_eq_true_iff]
  constructor
  · exact fun hab => ⟨a, b, hv, hw, ha, hb, hab⟩
  · rintro ⟨a', b', ha', hb', hag, hbg, hab⟩
    obtain rfl := hg.uuids a' hag a ha (ha'.trans hv.symm)
    obtain rfl := hg.uuids b' hbg b hb (hb'.trans hw.symm)
    exact hab

lemma areConnected_tells_iff (hg : g.WellFormed m) (v1 v2 : DAGVertex σ π) :
    g.TellsEdge m v1.uuid v2.uuid (g.areConnected v1 v2) ↔ g.Both m v1.uuid v2.uuid := by
  constructor
  · rintro ⟨r, hr, -⟩
    simp only [areConnected, returns_bind, returns_findVertex hg.toOwned, and_assoc, exists_and_left,
      exists_eq_left] at hr
    by_contra hb
    rcases not_both hb with h | h
    · rw [find_missing h] at hr
      simp at hr
    · rw [find_missing h] at hr
      cases g.graph.find? (fun a => m.uuid a = some v1.uuid) <;> simp at hr
  · rintro ⟨⟨a, ha, hau⟩, b, hb, hbu⟩
    exact areConnected_tells hg ha hb hau hbu

lemma areConnectedByUuid_tells_iff (hg : g.WellFormed m) (u1 u2 : UUID) :
    g.TellsEdge m u1 u2 (g.areConnectedByUuid u1 u2) ↔ g.Both m u1 u2 := by
  constructor
  · rintro ⟨r, hr, -⟩
    obtain ⟨a, ha, b, hb, v, w, hv, hw, rfl, rfl, -⟩ := (returns_byUuid hg.toOwned hg.uuids).mp hr
    exact both_of_vertices ha hb hv hw
  · intro hboth
    obtain ⟨a, ha, b, hb, v, w, hv, hw, rfl, rfl⟩ := hboth.vertices hg.toOwned
    obtain ⟨r, hr, hedge⟩ := areConnected_tells hg ha hb (uuid_of_vertex hv) (uuid_of_vertex hw)
    exact ⟨r, (returns_byUuid hg.toOwned hg.uuids).mpr ⟨a, ha, b, hb, v, w, hv, hw, rfl, rfl, hr⟩, hedge⟩

variable [TaskStage σ] [TaskCallbackPlugin π]

lemma connect_congr (hv : v'.uuid = v.uuid) (hw : w'.uuid = w.uuid) : g.connect v' w' = g.connect v w := by
  simp only [connect, findVertex, hv, hw]

lemma connect_total (hg : g.WellFormed m) (v1 v2 : DAGVertex σ π) :
    ∃ reply m', Returns (g.connect v1 v2) m reply m' := by
  by_cases hboth : g.Both m v1.uuid v2.uuid
  · obtain ⟨a, ha, b, hb, v, w, hv, hw, hv1, hw2⟩ := hboth.vertices hg.toOwned
    obtain ⟨r, m₁, hcheck, hm, -⟩ := connectionWouldMakeCyclic_returns hg.toOwned hg.uuids hg.toClonable.known
      hg.config hg.toClonable.resolves ha hb hv hw
    have hstart {reply : Reply σ π} {m' : Memory σ π} : _ → Returns (g.connect v1 v2) m reply m' :=
      connect_checked hg.toOwned hg.uuids ha hb ((uuid_of_vertex hv).trans (congrArg some hv1))
        ((uuid_of_vertex hw).trans (congrArg some hw2)) hv hw hcheck
    cases r with
    | true =>
      refine ⟨.error ⟨v, w⟩, m₁, hstart ?_⟩
      simp [hm.vertex, hv, hw]
    | false =>
      obtain ⟨r', m₂, hconnect, -⟩ := (hm.wellFormed hg).connect ha hb
      refine ⟨.ok true, m₂, hstart ?_⟩
      simp only [Bool.false_eq_true, if_false, returns_bind, returns_pure]
      exact ⟨r', m₂, hconnect, trivial, rfl⟩
  · exact ⟨_, _, connect_missing hg.toOwned (not_both hboth)⟩

/-- `connect_by_uuid` does what `connect` does with vertices of those identifiers: nothing, where one
of them is not there. -/
def ConnectsByUuid (g : DAG) (m : Memory σ π) (u1 u2 : UUID) : Prop :=
  ∀ v1 v2 : DAGVertex σ π, v1.uuid = u1 → v2.uuid = u2 → ∃ reply m', Returns (g.connectByUuid u1 u2) m reply m' ∧
    Returns (g.connect v1 v2) m reply m' ∧ (¬ g.Both m u1 u2 → reply = .ok false ∧ m' = m)

lemma connectsByUuid_iff (hg : g.WellFormed m) (u1 u2 : UUID) : g.ConnectsByUuid m u1 u2 ↔ g.Both m u1 u2 := by
  constructor
  · intro hc
    obtain ⟨reply, m', hr, -⟩ := hc { DAGVertex.moved with uuid := u1 } { DAGVertex.moved with uuid := u2 } rfl rfl
    obtain ⟨a, ha, b, hb, v, w, hv, hw, rfl, rfl, -⟩ := (returns_byUuid hg.toOwned hg.uuids).mp hr
    exact both_of_vertices ha hb hv hw
  · rintro hboth v1 v2 rfl rfl
    obtain ⟨a, ha, b, hb, v, w, hv, hw, hv1, hw2⟩ := hboth.vertices hg.toOwned
    obtain ⟨reply, m', hr⟩ := connect_total hg v1 v2
    refine ⟨reply, m', ?_, hr, fun hnot => absurd hboth hnot⟩
    rw [← connect_congr hv1 hw2] at hr
    exact (returns_byUuid hg.toOwned hg.uuids).mpr ⟨a, ha, b, hb, v, w, hv, hw, hv1, hw2, hr⟩

lemma connectionWouldMakeCyclicByUuid_iff (hg : g.WellFormed m) (u1 u2 : UUID) :
    (∃ r m', Returns (g.connectionWouldMakeCyclicByUuid u1 u2) m r m') ↔ g.Both m u1 u2 := by
  constructor
  · rintro ⟨r, m', hr⟩
    obtain ⟨a, ha, b, hb, v, w, hv, hw, rfl, rfl, -⟩ := (returns_byUuid hg.toOwned hg.uuids).mp hr
    exact both_of_vertices ha hb hv hw
  · intro hboth
    obtain ⟨a, ha, b, hb, v, w, hv, hw, hv1, hw2⟩ := hboth.vertices hg.toOwned
    obtain ⟨r, m', hr, -⟩ := connectionWouldMakeCyclic_returns hg.toOwned hg.uuids hg.toClonable.known
      hg.config hg.toClonable.resolves ha hb hv hw
    exact ⟨r, m', (returns_byUuid hg.toOwned hg.uuids).mpr ⟨a, ha, b, hb, v, w, hv, hw, hv1, hw2, hr⟩⟩

/-- Only `connect` takes identifiers that the graph does not have; the other calls work on two of its
vertices. -/
theorem lookups (hg : g.WellFormed m) (u1 u2 : UUID) :
    (g.ConnectsByUuid m u1 u2 ↔ g.Both m u1 u2) ∧
    (g.TellsEdge m u1 u2 (g.areConnectedByUuid u1 u2) ↔ g.Both m u1 u2) ∧
    (∀ v1 v2 : DAGVertex σ π, v1.uuid = u1 → v2.uuid = u2 →
      (g.TellsEdge m u1 u2 (g.areConnected v1 v2) ↔ g.Both m u1 u2)) ∧
    ((∃ r m', Returns (g.connectionWouldMakeCyclicByUuid u1 u2) m r m') ↔ g.Both m u1 u2) := by
  refine ⟨connectsByUuid_iff hg u1 u2, areConnectedByUuid_tells_iff hg u1 u2, ?_,
    connectionWouldMakeCyclicByUuid_iff hg u1 u2⟩
  rintro v1 v2 rfl rfl
  exact areConnected_tells_iff hg v1 v2

theorem lookups_sample :
    (Sample.dag.ConnectsByUuid Sample.memory ⟨1⟩ ⟨2⟩ ↔ Sample.dag.Both Sample.memory ⟨1⟩ ⟨2⟩) ∧
    (Sample.dag.TellsEdge Sample.memory ⟨1⟩ ⟨2⟩ (Sample.dag.areConnectedByUuid ⟨1⟩ ⟨2⟩) ↔
      Sample.dag.Both Sample.memory ⟨1⟩ ⟨2⟩) ∧
    (∀ v1 v2 : DAGVertex Unit Unit, v1.uuid = ⟨1⟩ → v2.uuid = ⟨2⟩ →
      (Sample.dag.TellsEdge Sample.memory ⟨1⟩ ⟨2⟩ (Sample.dag.areConnected v1 v2) ↔
        Sample.dag.Both Sample.memory ⟨1⟩ ⟨2⟩)) ∧
    ((∃ r m', Returns (Sample.dag.connectionWouldMakeCyclicByUuid ⟨1⟩ ⟨2⟩) Sample.memory r m') ↔
      Sample.dag.Both Sample.memory ⟨1⟩ ⟨2⟩) :=
  lookups Sample.wellFormed ⟨1⟩ ⟨2⟩

theorem lookups_fail :
    Sample.dag.WellFormed Sample.memory ∧
    (Sample.dag.connectByUuid ⟨1⟩ ⟨7⟩).run Sample.memory = .error .nullDereference ∧
    (Sample.dag.areConnectedByUuid ⟨1⟩ ⟨7⟩).run Sample.memory = .error .nullDereference ∧
    (Sample.dag.areConnected (Sample.vertex 1 [] 0 Sample.task₁) (Sample.vertex 7 [] 0 Sample.task₁)).run
      Sample.memory = .error .nullDereference ∧
    (Sample.dag.connectionWouldMakeCyclicByUuid ⟨1⟩ ⟨7⟩).run Sample.memory = .error .nullDereference :=
  ⟨Sample.wellFormed, rfl, rfl, rfl, rfl⟩

end DagScheduler.Graphs.DAG

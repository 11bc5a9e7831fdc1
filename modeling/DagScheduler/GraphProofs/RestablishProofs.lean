import DagScheduler.GraphProofs.CloneProofs

/-! Taking the connections of a vertex to a clone of it: the clone gets the same edges, to vertices
of its own. -/

namespace DagScheduler.Graphs

open Library Library.Programs DAGVertex

variable {σ π : Type} [TaskStage σ] [TaskCallbackPlugin π] {m m' : Memory σ π} {a c t x : Addr} {v w : DAGVertex σ π}
  {k : Connection σ π} {ks : List (Connection σ π)} {ts : List Addr}

def rejoined (k : Connection σ π) (t : Addr) : DAGEdge := { k.edge.clone.clone with connection := some t }

def restored (k : Connection σ π) : DAGVertex σ π := k.vertex.clone.clone.incremented

def Memory.restablished (m : Memory σ π) (this : Addr) (k : Connection σ π) : Memory σ π :=
  (({ m with vertices := m.vertices.makeShared k.vertex.clone.clone } : Memory σ π).add m.vertices.next).modifyVertex this
    fun v => { v with edges := v.edges ++ [rejoined k m.vertices.next] }

lemma returns_restablishConnection :
    Returns (restablishConnection c k) m t m' ↔ t = m.vertices.next ∧ m' = m.restablished c k := by
  have hlive : ({ m with vertices := m.vertices.makeShared k.vertex.clone.clone } : Memory σ π).Live m.vertices.next := by
    simp [Memory.Live, Memory.vertex]
  simp only [restablishConnection, returns_bind, returns_makeShared, and_assoc, exists_and_left, exists_eq_left,
    returns_connectTo_new hlive (rfl : k.edge.clone.clone.connection = none), returns_modifyVertex, returns_pure,
    exists_const]
  rfl

lemma restablished_frame (m : Memory σ π) (c : Addr) (k : Connection σ π) :
    Frame (fun x => x = m.vertices.next ∨ x = c) { m with vertices := m.vertices.makeShared k.vertex.clone.clone }
      (m.restablished c k) := by
  let m₁ : Memory σ π := { m with vertices := m.vertices.makeShared k.vertex.clone.clone }
  have hadd : Frame (fun x => x = m.vertices.next ∨ x = c) m₁ (m₁.add m.vertices.next) :=
    (Frame.add m₁ _).mono fun _ => .inl
  refine hadd.trans ((Frame.modifyVertex (m₁.add m.vertices.next) c ?_).mono fun _ => .inr)
  exact fun _ => rfl

lemma restablished_old (k : Connection σ π) (hx : x < m.vertices.next) (hne : x ≠ c) :
    (m.restablished c k).vertices.cell x = m.vertices.cell x := by
  rw [(restablished_frame m c k).cell x (by simp [hx.ne, hne])]
  exact m.vertices.cell_makeShared_ne _ hx.ne

section Restablished

variable (hc : m.vertex c = some w) (k : Connection σ π)
include hc

lemma restablished_this :
    (m.restablished c k).vertex c = some { w with edges := w.edges ++ [rejoined k m.vertices.next] } := by
  have hne : c ≠ m.vertices.next := (vertex_lt (Memory.live_of_vertex hc)).ne
  have hmade : ({ m with vertices := m.vertices.makeShared k.vertex.clone.clone } : Memory σ π).vertex c = some w :=
    (m.vertices.value_makeShared_ne _ hne).trans hc
  rw [Memory.restablished, vertex_modifyVertex, if_pos rfl, vertex_add, if_neg hne, hmade]
  rfl

lemma restablished_target : (m.restablished c k).vertex m.vertices.next = some (restored k) ∧
    (m.restablished c k).vertices.owners m.vertices.next = 1 := by
  have hne : m.vertices.next ≠ c := (vertex_lt (Memory.live_of_vertex hc)).ne'
  constructor
  · have hmade : ({ m with vertices := m.vertices.makeShared k.vertex.clone.clone } : Memory σ π).vertex m.vertices.next =
        some k.vertex.clone.clone := m.vertices.value_makeShared_self _
    rw [Memory.restablished, vertex_modifyVertex, if_neg hne, vertex_add, if_pos rfl, hmade]
    rfl
  · rw [(restablished_frame m c k).owners]
    simp [SharedHeap.owners]

end Restablished

/-- The vertices `ts` were made for the connections `ks`, and `w` at `c` got the edges to them. -/
structure Restablished (m : Memory σ π) (c : Addr) (w : DAGVertex σ π) (ks : List (Connection σ π)) (ts : List Addr)
    (m' : Memory σ π) : Prop where
  this : m'.vertex c = some { w with edges := w.edges ++ List.zipWith rejoined ks ts }
  targets : List.Forall₂ (fun k t => m'.vertex t = some (restored k) ∧ m'.vertices.owners t = 1) ks ts
  fresh : ∀ t ∈ ts, m.vertices.next ≤ t
  distinct : ts.Nodup
  old : ∀ x, x < m.vertices.next → x ≠ c → m'.vertices.cell x = m.vertices.cell x

lemma restablishConnections_restablished (hc : m.vertex c = some w) (ks : List (Connection σ π)) :
    ∃ ts m', Returns (restablishConnections c ks) m ts m' ∧ Restablished m c w ks ts m' := by
  induction ks generalizing m w with
  | nil => exact ⟨[], m, by simp [restablishConnections], by simpa using hc, .nil, by simp, .nil, fun _ _ _ => rfl⟩
  | cons k ks ih =>
    obtain ⟨ts, m', hr, h⟩ := ih (restablished_this hc k)
    have hlt : c < m.vertices.next := vertex_lt (Memory.live_of_vertex hc)
    have hfresh : ∀ t ∈ ts, m.vertices.next < t := fun t ht => h.fresh t ht
    obtain ⟨hvertex, howners⟩ := restablished_target hc k
    have hkept : m'.vertices.cell m.vertices.next = (m.restablished c k).vertices.cell m.vertices.next :=
      h.old _ (Nat.lt_succ_self _) hlt.ne'
    refine ⟨m.vertices.next :: ts, m', ?_, ?_, .cons ⟨?_, ?_⟩ h.targets, ?_, ?_, ?_⟩
    · rw [restablishConnections, List.mapM_cons, returns_bind]
      refine ⟨_, _, returns_restablishConnection.mpr ⟨rfl, rfl⟩, returns_bind.mpr ⟨ts, m', hr, ?_⟩⟩
      exact returns_pure.mpr ⟨rfl, rfl⟩
    · rw [h.this, List.zipWith_cons_cons, List.append_assoc, List.singleton_append]
    · exact (SharedHeap.value_of_cell_eq hkept).trans hvertex
    · exact (SharedHeap.owners_of_cell_eq hkept).trans howners
    · rintro t (_ | ⟨_, ht⟩)
      · exact le_refl _
      · exact (hfresh t ht).le
    · exact List.nodup_cons.mpr ⟨fun ht => (hfresh _ ht).ne rfl, h.distinct⟩
    · intro x hx hne
      rw [h.old x (Nat.lt_succ_of_lt hx) hne, restablished_old k hx hne]

/-- The edge `e'` is `e`, to a copy of its target that has come into being since. -/
structure Follows (m m' : Memory σ π) (e e' : DAGEdge) : Prop where
  uuid : e'.uuid = e.uuid
  currentStatus : e'.currentStatus = e.currentStatus
  target : ∃ x y t z, e.connection = some x ∧ m.vertex x = some y ∧ e'.connection = some t ∧ m'.vertex t = some z ∧
    z.uuid = y.uuid ∧ z.label = y.label ∧ z.currentStatus = y.currentStatus ∧ z.incommingEdgeCount = 1 ∧
    z.edges = [] ∧ m'.vertices.owners t = 1 ∧ m.vertices.next ≤ t

/-- `c` has the edges of `v`, to the vertices `ts`, and nothing else has changed. -/
structure Rebuilt (m : Memory σ π) (a : Addr) (v : DAGVertex σ π) (c : Addr) (ts : List Addr) (m' : Memory σ π) :
    Prop where
  edges : ∃ es, m'.vertex c = some { v.clone with edges := es } ∧ List.Forall₂ (Follows m m') v.edges es ∧
    es.map DAGEdge.connection = ts.map some
  distinct : ts.Nodup
  original : m'.vertex a = some v
  old : ∀ x, m.Live x → x ≠ c → m'.vertices.cell x = m.vertices.cell x

lemma follows_rejoined {es : List DAGEdge} (hes : List.Forall₂ (DAG.ConnectionOf m) es ks)
    (hts : List.Forall₂ (fun k t => m'.vertex t = some (restored k) ∧ m'.vertices.owners t = 1) ks ts)
    (hfresh : ∀ t ∈ ts, m.vertices.next ≤ t) : List.Forall₂ (Follows m m') es (List.zipWith rejoined ks ts) ∧
      (List.zipWith rejoined ks ts).map DAGEdge.connection = ts.map some := by
  induction hes generalizing ts with
  | nil =>
    cases hts
    exact ⟨.nil, rfl⟩
  | cons hk _ ih =>
    cases hts with
    | cons ht hts =>
      obtain ⟨hnext, hrest⟩ := List.forall_mem_cons.mp hfresh
      obtain ⟨hall, hconnections⟩ := ih hts hrest
      obtain ⟨x, y, hx, hy, rfl⟩ := hk
      obtain ⟨hvertex, howners⟩ := ht
      refine ⟨.cons ⟨rfl, rfl, x, y, _, _, (connection_eq_some.mp hx).1, hy, rfl, hvertex, rfl, rfl, rfl, rfl, rfl, howners,
        hnext⟩ hall, ?_⟩
      rw [List.zipWith_cons_cons, List.map_cons, List.map_cons, hconnections]
      rfl

theorem restablishConnections_rebuilds (hv : m.vertex a = some v) (hlive : ∀ e ∈ v.edges, (m.connection e).isSome)
    (hc : m.vertex c = some v.clone) : ∃ ts m',
      Returns (do restablishConnections c (← cloneAllConnections a)) m ts m' ∧ Rebuilt m a v c ts m' := by
  obtain ⟨ks, hks, hall⟩ : ∃ ks, Returns (v.edges.mapM cloneConnection) m ks m ∧
      List.Forall₂ (DAG.ConnectionOf m) v.edges ks := by
    refine mapM_reads fun e he => ?_
    obtain ⟨x, hx⟩ := Option.isSome_iff_exists.mp (hlive e he)
    obtain ⟨y, hy⟩ := Memory.live_iff.mp (connection_eq_some.mp hx).2
    have hk : DAG.ConnectionOf m e ⟨e.clone.clone, { y.clone.clone with incommingEdgeCount := 0 }⟩ := ⟨x, y, hx, hy, rfl⟩
    exact ⟨_, DAG.returns_cloneConnection.mpr ⟨hk, rfl⟩, hk⟩
  obtain ⟨ts, m', hr, h⟩ := restablishConnections_restablished hc ks
  obtain ⟨hfollows, hconnections⟩ := follows_rejoined hall h.targets h.fresh
  have hthis : m'.vertex c = some { v.clone with edges := List.zipWith rejoined ks ts } := h.this
  refine ⟨ts, m', ?_, ⟨_, hthis, hfollows, hconnections⟩, h.distinct, ?_, ?_⟩
  · simp only [cloneAllConnections, returns_bind, returns_deref]
    exact ⟨ks, m, ⟨v, m, ⟨hv, rfl⟩, hks⟩, hr⟩
  · rcases eq_or_ne a c with rfl | hne
    -- A vertex that is its own clone has no edges.
    · have hself : v = v.clone := Option.some.inj (hv.symm.trans hc)
      have hnil : v.edges = [] := by rw [hself]; rfl
      rw [hnil] at hall
      cases hall
      exact hthis.trans (congrArg some hself.symm)
    · rw [← hv]
      exact SharedHeap.value_of_cell_eq (h.old a (vertex_lt (Memory.live_of_vertex hv)) hne)
  · exact fun x hx hne => h.old x (vertex_lt hx) hne

namespace Sample

def forkEdges : List DAGEdge := [⟨⟨5⟩, .initialized, some 1⟩, ⟨⟨6⟩, .initialized, some 2⟩]

/-- The first vertex points at the second and the third, and the last one is its clone. -/
def forked : Memory Unit Unit where
  vertices := [vertex 1 forkEdges 0 task₁, vertex 2 [] 1 task₂, vertex 3 [] 1 task₂,
    (vertex 1 forkEdges 0 task₁).clone].foldl SharedHeap.makeShared SharedHeap.empty
  entropy n := ⟨BitVec.ofNat 128 (n + 10)⟩
  wrapped := false

end Sample

theorem restablishConnections_rebuilds_sample : ∃ ts m',
    Returns (do restablishConnections 3 (← cloneAllConnections 0)) Sample.forked ts m' ∧
      Rebuilt Sample.forked 0 (Sample.vertex 1 Sample.forkEdges 0 Sample.task₁) 3 ts m' :=
  restablishConnections_rebuilds rfl (by decide) rfl

end DagScheduler.Graphs

import DagScheduler.GraphProofs.EdgeProofs

/-! Copying a graph: vertices first, then the edges of each, by identifier. -/

namespace DagScheduler.Graphs

open Library Library.Programs Library.Digraphs

variable {σ π : Type} {m m' m'' : Memory σ π} {g : DAG} {a b x y : Addr} {v w : DAGVertex σ π}
  {V : List Addr} {u : UUID}

namespace DAG

lemma returns_findIn {as : List Addr} (hlive : ∀ a ∈ as, m.Live a) {r : Option Addr} :
    Returns (findIn u as) m r m' ↔ r = as.find? (fun a => m.uuid a = some u) ∧ m' = m := by
  induction as with
  | nil => simp [findIn]
  | cons a as ih =>
    obtain ⟨v, hv⟩ := Memory.live_iff.mp (hlive a List.mem_cons_self)
    have ih' := ih (fun b hb => hlive b (List.mem_cons_of_mem _ hb))
    simp only [findIn, returns_bind, returns_deref, hv, Option.some.injEq, and_assoc, exists_and_left,
      exists_eq_left', exists_eq_left]
    by_cases hu : u = v.uuid
    · subst hu
      rw [if_pos (UUID.eq_iff.mpr rfl), returns_pure, List.find?_cons_of_pos (by simp [uuid_of_vertex hv])]
    · have hne : ¬ m.uuid a = some u := by
        rw [uuid_of_vertex hv, Option.some.injEq]
        exact fun he => hu he.symm
      rw [if_neg (fun he => hu (UUID.eq_iff.mp he)), ih', List.find?_cons_of_neg (by simpa using hne)]

lemma returns_findVertexByUuid (ho : g.Owned m) {r : Option Addr} :
    Returns (g.findVertexByUuid u) m r m' ↔
      r = g.graph.find? (fun a => m.uuid a = some u) ∧ m' = m := returns_findIn ho.live

lemma returns_findVertex (ho : g.Owned m) {r : Option Addr} :
    Returns (g.findVertex v) m r m' ↔
      r = g.graph.find? (fun a => m.uuid a = some v.uuid) ∧ m' = m := returns_findVertexByUuid ho

lemma find_uuid (hu : g.DistinctUuids m) (ha : a ∈ g.graph) {i : Option UUID} (hi : m.uuid a = i) :
    g.graph.find? (fun b => m.uuid b = i) = some a := by
  cases hf : g.graph.find? (fun b => m.uuid b = i) with
  | none => exact absurd hi (by simpa using List.find?_eq_none.mp hf a ha)
  | some b =>
    have hb : m.uuid b = i := by simpa using List.find?_some hf
    rw [hu a ha b (List.mem_of_find?_eq_some hf) (hi.trans hb.symm)]

lemma findVertex_self (ho : g.Owned m) (hu : g.DistinctUuids m) (ha : a ∈ g.graph)
    (hv : m.uuid a = some v.uuid) : Returns (g.findVertex v) m (some a) m :=
  (returns_findVertex ho).mpr ⟨(find_uuid hu ha hv).symm, rfl⟩

lemma returns_edgeCount (hlive : ∀ a ∈ g.graph, m.Live a) :
    Returns g.edgeCount m (g.graph.map fun a => (m.edges a).length).sum m := by
  have hfold : ∀ as : List Addr, (∀ a ∈ as, m.Live a) → ∀ n, Returns (as.foldlM (fun ret a => do
      pure (ret + (← deref a).edgeCount)) n) m (n + (as.map fun a => (m.edges a).length).sum) m := by
    intro as
    induction as with
    | nil => exact fun _ n => by simp
    | cons a as ih =>
      intro has n
      obtain ⟨v, hv⟩ := Memory.live_iff.mp (has a List.mem_cons_self)
      have hrest := ih (fun b hb => has b (List.mem_cons_of_mem _ hb)) (n + v.edgeCount)
      refine returns_foldlM_cons.mpr ⟨n + v.edgeCount, m, by simp [hv], ?_⟩
      rw [List.map_cons, List.sum_cons, edges_of_vertex hv, ← Nat.add_assoc]
      exact hrest
  have hr := hfold g.graph hlive 0
  rw [Nat.zero_add] at hr
  exact hr

lemma returns_addVertex (ho : g.Owned m) {r : Bool × DAG × DAGVertex σ π} :
    Returns (g.addVertex v) m r m' ↔
      if g.graph.any (fun a => m.uuid a = some v.uuid) then r = (false, g, v) ∧ m' = m
      else r = (true, { g with graph := g.graph ++ [m.vertices.next] }, DAGVertex.moved) ∧
        m' = { m with vertices := m.vertices.makeShared v } := by
  simp only [addVertex, containsVertex, returns_bind, returns_findVertex ho, returns_pure, and_assoc,
    exists_and_left, exists_eq_left, List.find?_isSome, List.any_eq_true]
  split_ifs with h
  · rw [returns_pure]
  · simp only [returns_bind, returns_makeShared, and_assoc, exists_and_left, exists_eq_left, returns_pure]

lemma addVertex_kept (ho : g.Owned m) (has : g.Has m v.uuid) : Returns (g.addVertex v) m (false, g, v) m := by
  have hany : g.graph.any (fun a => m.uuid a = some v.uuid) = true := by simpa [Has] using has
  rw [returns_addVertex ho, if_pos hany]
  exact ⟨rfl, rfl⟩

lemma addVertex_new (ho : g.Owned m) (hnew : ¬ g.Has m v.uuid) :
    Returns (g.addVertex v) m (true, { g with graph := g.graph ++ [m.vertices.next] }, DAGVertex.moved)
      { m with vertices := m.vertices.makeShared v } := by
  have hany : ¬ g.graph.any (fun a => m.uuid a = some v.uuid) = true := by simpa [Has] using hnew
  rw [returns_addVertex ho, if_neg hany]
  exact ⟨rfl, rfl⟩

/-! The second pass: edges are found again by the identifiers of their targets. -/

/-- The vertex of the graph that has the identifier of an edge's live target. -/
def resolve (g : DAG) (m : Memory σ π) (e : DAGEdge) : Option Addr :=
  (m.connection e).bind fun c => g.graph.find? fun a => m.uuid a = m.uuid c

def resolved (g : DAG) (m : Memory σ π) (a : Addr) : List Addr := (m.edges a).filterMap (g.resolve m)

/-- Every edge observes, or observed, a vertex that exists already. -/
def Known (g : DAG) (m : Memory σ π) : Prop :=
  ∀ a ∈ g.graph, ∀ e ∈ m.edges a, ∀ c, e.connection = some c → c < m.vertices.next

def Resolves (g : DAG) (m : Memory σ π) : Prop :=
  ∀ a ∈ g.graph, ∀ e ∈ m.edges a, (g.resolve m e).isSome

lemma Clonable.known (hg : g.Clonable m) : g.Known m := by
  intro a ha e he c hc
  obtain ⟨d, hd, hed⟩ := hg.inside a ha e he
  obtain rfl : c = d := Option.some.inj (hc.symm.trans hed)
  exact vertex_lt (hg.live c hd)

lemma Clonable.connection (hg : g.Clonable m) (ha : a ∈ g.graph) {e : DAGEdge} (he : e ∈ m.edges a) :
    ∃ c ∈ g.graph, e.connection = some c ∧ m.connection e = some c := by
  obtain ⟨c, hc, hec⟩ := hg.inside a ha e he
  exact ⟨c, hc, hec, connection_eq_some.mpr ⟨hec, hg.live c hc⟩⟩

lemma Clonable.resolve (hg : g.Clonable m) (ha : a ∈ g.graph) {e : DAGEdge} (he : e ∈ m.edges a) :
    g.resolve m e = m.connection e := by
  obtain ⟨c, hc, -, hlive⟩ := hg.connection ha he
  rw [DAG.resolve, hlive, Option.bind_some]
  exact find_uuid hg.uuids hc rfl

lemma Clonable.resolves (hg : g.Clonable m) : g.Resolves m := by
  intro a ha e he
  obtain ⟨c, -, -, hlive⟩ := hg.connection ha he
  rw [hg.resolve ha he, hlive]
  rfl

lemma Clonable.resolved (hg : g.Clonable m) (ha : a ∈ g.graph) : g.resolved m a = m.targets a :=
  List.filterMap_congr (fun _ he => hg.resolve ha he)

def Found (g : DAG) (m : Memory σ π) (c : DAGVertex.Connection σ π) (y : Addr) : Prop :=
  g.graph.find? (fun a => m.uuid a = some c.vertex.uuid) = some y

lemma Found.frame {S : Addr → Prop} {c : DAGVertex.Connection σ π} (h : g.Found m c y)
    (hf : Frame S m m') : g.Found m' c y := by
  have hpred : (fun a => decide (m'.uuid a = some c.vertex.uuid)) =
      fun a => decide (m.uuid a = some c.vertex.uuid) := by
    funext a
    rw [hf.uuid]
  rw [Found, hpred]
  exact h

lemma connectClones_returns {cs : List (DAGVertex.Connection σ π)} {ys : List Addr} (hx : x ∈ g.graph)
    (hg : g.WellFormed m) (hall : List.Forall₂ (g.Found m) cs ys) :
    ∃ m', Returns (g.connectClones x cs) m () m' ∧ g.WellFormed m' ∧ Frame (· ∈ g.graph) m m' ∧
      m'.wrapped = m.wrapped ∧
      m'.targets = Function.update m.targets x (extend (m.targets x) ys) := by
  induction cs generalizing m ys with
  | nil =>
    obtain rfl := List.forall₂_nil_left_iff.mp hall
    exact ⟨m, by simp [connectClones], hg, Frame.refl _ m, rfl, by simp⟩
  | cons c cs ih =>
    obtain ⟨y, zs, hy, hrest, rfl⟩ := List.forall₂_cons_left_iff.mp hall
    obtain ⟨r, m₁, hr, hg₁, hf₁, hw₁, ht₁⟩ := hg.connect hx (List.mem_of_find?_eq_some hy)
    obtain ⟨m₂, hr₂, hg₂, hf₂, hw₂, ht₂⟩ := ih hg₁ (hrest.imp (fun _ _ h => h.frame hf₁))
    refine ⟨m₂, ?_, hg₂, hf₁.trans hf₂, hw₂.trans hw₁, ?_⟩
    · simp only [connectClones, returns_bind]
      refine ⟨some y, m, (returns_findVertex hg.toOwned).mpr ⟨hy.symm, rfl⟩, ?_⟩
      exact returns_bind.mpr ⟨r, m₁, hr, hr₂⟩
    · rw [ht₂, ht₁, Function.update_self, Function.update_idem]
      rfl

lemma connectClones_found {cs : List (DAGVertex.Connection σ π)} (hx : x ∈ g.graph)
    (hg : g.WellFormed m) (hr : Returns (g.connectClones x cs) m () m') :
    ∃ ys, List.Forall₂ (g.Found m) cs ys := by
  induction cs generalizing m with
  | nil => exact ⟨[], .nil⟩
  | cons c cs ih =>
    simp only [connectClones, returns_bind] at hr
    obtain ⟨y, u, hfind, hrest⟩ := hr
    obtain ⟨hy, rfl⟩ := (returns_findVertex hg.toOwned).mp hfind
    cases y with
    | none => exact absurd hrest returns_throw
    | some y =>
      obtain ⟨r, m₁, hr₁, hr₂⟩ := returns_bind.mp hrest
      obtain ⟨r', m₁', hr', hg₁, hf₁, -, -⟩ := hg.connect hx (List.mem_of_find?_eq_some hy.symm)
      obtain ⟨rfl, rfl⟩ := hr₁.unique hr'
      obtain ⟨ys, hys⟩ := ih hg₁ hr₂
      exact ⟨y :: ys, .cons hy.symm (hys.imp (fun _ _ h => h.frame hf₁.symm))⟩

end DAG

variable [TaskStage σ] [TaskCallbackPlugin π]

/-- Each vertex of `V` was copied, without its edges, to a new address given by `φ`. -/
structure Copied (V : List Addr) (φ : Addr → Addr) (m m' : Memory σ π) : Prop where
  old : ∀ a, a < m.vertices.next → m'.vertices.cell a = m.vertices.cell a
  fresh : ∀ a ∈ V, m.vertices.next ≤ φ a
  injective : ∀ a ∈ V, ∀ b ∈ V, φ a = φ b → a = b
  copy : ∀ a ∈ V, ∀ w, m.vertex a = some w → (m'.vertex (φ a)).map DAGVertex.core = some w.clone
  owners : ∀ a ∈ V, m'.vertices.owners (φ a) = 1
  rest : ∀ b, m.vertices.next ≤ b → b ∉ V.map φ → m'.vertices.cell b = none
  next : m.vertices.next ≤ m'.vertices.next

namespace Copied

variable {φ : Addr → Addr}

lemma frame (h : Copied V φ m m') (hf : Frame (· ∈ V.map φ) m' m'') : Copied V φ m m'' where
  old a ha := by
    have hn : a ∉ V.map φ := by
      rintro hm
      obtain ⟨b, hb, rfl⟩ := List.mem_map.mp hm
      exact absurd ha (Nat.not_lt.mpr (h.fresh b hb))
    rw [hf.cell a hn, h.old a ha]
  fresh := h.fresh
  injective := h.injective
  copy a ha w hw := (hf.core _).trans (h.copy a ha w hw)
  owners a ha := (hf.owners _).trans (h.owners a ha)
  rest b hb hn := (hf.cell b hn).trans (h.rest b hb hn)
  next := h.next.trans hf.next.ge

lemma uuid (h : Copied V φ m m') (ha : a ∈ V) (hl : m.Live a) : m'.uuid (φ a) = m.uuid a := by
  obtain ⟨w, hw⟩ := Memory.live_iff.mp hl
  have hc := congrArg (Option.map DAGVertex.uuid) (h.copy a ha w hw)
  simpa [Memory.uuid, hw, Option.map_map, Function.comp_def, DAGVertex.core, DAGVertex.clone] using hc

end Copied

namespace DAG

def copyAt (g : DAG) (m : Memory σ π) (a : Addr) : Addr := m.vertices.next + g.graph.idxOf a

structure CopyInv (g : DAG) (m : Memory σ π) (pre : List Addr) (m' : Memory σ π) : Prop where
  old : ∀ a, a < m.vertices.next → m'.vertices.cell a = m.vertices.cell a
  cells : ∀ a ∈ pre, ∀ w, m.vertex a = some w →
    m'.vertices.cell (g.copyAt m a) = some ⟨w.clone, 1⟩
  next : m'.vertices.next = m.vertices.next + pre.length
  wrapped : m'.wrapped = m.wrapped

lemma CopyInv.uuid {pre : List Addr} (h : g.CopyInv m pre m') (ha : a ∈ pre) (hl : m.Live a) :
    m'.uuid (g.copyAt m a) = m.uuid a := by
  obtain ⟨w, hw⟩ := Memory.live_iff.mp hl
  have hv : m'.vertex (g.copyAt m a) = some w.clone := by
    simp [Memory.vertex, SharedHeap.value, h.cells a ha w hw]
  rw [uuid_of_vertex hv, uuid_of_vertex hw]
  rfl

omit [TaskStage σ] [TaskCallbackPlugin π] in
lemma copyAt_injOn : ∀ a ∈ g.graph, ∀ b ∈ g.graph, g.copyAt m a = g.copyAt m b → a = b :=
  fun _ ha _ _ hab => (List.idxOf_inj ha).mp (Nat.add_left_cancel hab)

lemma CopyInv.owned {pre : List Addr} (h : g.CopyInv m pre m') (ho : g.Owned m) (hpre : pre.Sublist g.graph)
    (title : String) (config : Option Document) :
    Owned ⟨pre.map (g.copyAt m), title, config⟩ m' where
  nodup := (ho.nodup.sublist hpre).map_on
    (fun a ha b hb => copyAt_injOn a (hpre.subset ha) b (hpre.subset hb))
  live b hb := by
    obtain ⟨a, ha, rfl⟩ := List.mem_map.mp hb
    obtain ⟨v, hv⟩ := Memory.live_iff.mp (ho.live a (hpre.subset ha))
    simp [Memory.Live, Memory.vertex, SharedHeap.value, h.cells a ha v hv]

lemma CopyInv.add {pre xs : List Addr} (h : g.CopyInv m pre m') (ho : g.Owned m)
    (hpre : g.graph = pre ++ x :: xs) (hw : m.vertex x = some w) :
    g.copyAt m x = m'.vertices.next ∧
      g.CopyInv m (pre ++ [x]) { m' with vertices := m'.vertices.makeShared w.clone } := by
  have hnodup := hpre ▸ ho.nodup
  have hxpre : x ∉ pre := fun hx' =>
    (List.nodup_append.mp hnodup).2.2 x hx' x List.mem_cons_self rfl
  have hat : g.copyAt m x = m'.vertices.next := by
    rw [copyAt, hpre, List.idxOf_append_of_notMem hxpre, List.idxOf_cons_self, Nat.add_zero, h.next]
  refine ⟨hat, ?_, ?_, by simp [h.next, Nat.add_assoc], h.wrapped⟩
  · intro a ha
    have hne : a ≠ m'.vertices.next := by
      have := h.next
      omega
    rw [← h.old a ha]
    exact m'.vertices.cell_makeShared_ne _ hne
  · intro a ha v hv
    rcases List.mem_append.mp ha with ha | ha
    · have hne : g.copyAt m a ≠ m'.vertices.next := by
        rw [← hat]
        exact fun he => hxpre (copyAt_injOn a (by simp [hpre, ha]) x (by simp [hpre]) he ▸ ha)
      rw [← h.cells a ha v hv]
      exact m'.vertices.cell_makeShared_ne _ hne
    · obtain rfl := List.mem_singleton.mp ha
      obtain rfl : w = v := Option.some.inj (hw.symm.trans hv)
      rw [hat]
      exact m'.vertices.cell_makeShared_self _

lemma addClones_returns (ho : g.Owned m) (hu : g.DistinctUuids m) (title : String)
    (config : Option Document) :
    ∃ m', Returns (addClones ⟨[], title, config⟩ g.graph) m ⟨g.graph.map (g.copyAt m), title, config⟩ m' ∧
      g.CopyInv m g.graph m' := by
  let I : List Addr → DAG → Memory σ π → Prop := fun rest g' m' =>
    ∃ pre, g.graph = pre ++ rest ∧ g' = ⟨pre.map (g.copyAt m), title, config⟩ ∧ g.CopyInv m pre m'
  have hstep : ∀ x xs g' m', I (x :: xs) g' m' → ∃ g'' m'',
      Returns (addClone g' x) m' g'' m'' ∧ I xs g'' m'' := by
    rintro x xs g' m' ⟨pre, hpre, rfl, h⟩
    have hx : x ∈ g.graph := by simp [hpre]
    have hsub : pre.Sublist g.graph := hpre ▸ List.sublist_append_left pre (x :: xs)
    obtain ⟨w, hw⟩ := Memory.live_iff.mp (ho.live x hx)
    have hw' : m'.vertex x = some w :=
      (SharedHeap.value_of_cell_eq (h.old x (m.vertices.value_lt hw))).trans hw
    have hnew : ¬ (pre.map (g.copyAt m)).any (fun a => m'.uuid a = some w.clone.uuid) = true := by
      simp only [List.any_map, List.any_eq_true, Function.comp_apply, decide_eq_true_eq, not_exists, not_and]
      intro a ha he
      rw [h.uuid ha (ho.live a (hsub.subset ha))] at he
      have hax : a = x := hu a (hsub.subset ha) x hx (he.trans (uuid_of_vertex hw).symm)
      have hd := hpre ▸ ho.nodup
      exact (List.nodup_append.mp hd).2.2 a ha x List.mem_cons_self hax
    obtain ⟨hat, hadd⟩ := h.add ho hpre hw
    refine ⟨⟨(pre ++ [x]).map (g.copyAt m), title, config⟩, _, ?_, pre ++ [x], by simp [hpre], rfl, hadd⟩
    simp only [addClone, returns_bind, returns_deref]
    refine ⟨w, m', ⟨hw', rfl⟩, (true, ⟨(pre ++ [x]).map (g.copyAt m), title, config⟩, DAGVertex.moved),
      { m' with vertices := m'.vertices.makeShared w.clone }, ?_, by simp⟩
    rw [returns_addVertex (h.owned ho hsub title config), if_neg hnew]
    simp [hat]
  have hstart : I g.graph ⟨[], title, config⟩ m :=
    ⟨[], rfl, rfl, fun _ _ => rfl, by simp, by simp, rfl⟩
  obtain ⟨g', m', hr, pre, hpre, rfl, h⟩ := foldlM_returns I hstep hstart
  rw [List.append_nil] at hpre
  subst hpre
  exact ⟨m', hr, h⟩

lemma CopyInv.wellFormed (h : g.CopyInv m g.graph m') (ho : g.Owned m) (hu : g.DistinctUuids m)
    (title : String) (config : Document) :
    WellFormed ⟨g.graph.map (g.copyAt m), title, some config⟩ m' := by
  have hvertex : ∀ b ∈ g.graph.map (g.copyAt m), ∃ w, m'.vertex b = some (DAGVertex.clone w) := by
    intro b hb
    obtain ⟨a, ha, rfl⟩ := List.mem_map.mp hb
    obtain ⟨w, hw⟩ := Memory.live_iff.mp (ho.live a ha)
    exact ⟨w, by simp [Memory.vertex, SharedHeap.value, h.cells a ha w hw]⟩
  have hedges : ∀ b ∈ g.graph.map (g.copyAt m), m'.edges b = [] := by
    intro b hb
    obtain ⟨w, hw⟩ := hvertex b hb
    exact edges_of_vertex hw
  have htargets : ∀ b ∈ g.graph.map (g.copyAt m), m'.targets b = [] := by
    intro b hb
    rw [Memory.targets, hedges b hb, List.filterMap_nil]
  refine ⟨⟨h.owned ho (List.Sublist.refl _) title (some config), ?_, ?_, rfl⟩, ?_, ?_⟩
  · intro b hb e he
    simp [hedges b hb] at he
  · intro b hb c hc hbc
    obtain ⟨a, ha, rfl⟩ := List.mem_map.mp hb
    obtain ⟨d, hd, rfl⟩ := List.mem_map.mp hc
    rw [h.uuid ha (ho.live a ha), h.uuid hd (ho.live d hd)] at hbc
    rw [hu a ha d hd hbc]
  · intro b hb
    obtain ⟨w, hw⟩ := hvertex b hb
    rw [count_of_vertex hw]
    exact (inDegree_eq_zero.mpr (fun c hc => by simp [htargets c hc])).symm
  · intro b hb
    simp [htargets b hb]

lemma CopyInv.copied (h : g.CopyInv m g.graph m') (ho : g.Owned m) :
    Copied g.graph (g.copyAt m) m m' where
  old := h.old
  fresh a _ := Nat.le_add_right _ _
  injective := copyAt_injOn
  copy a ha w hw := by
    have hv : m'.vertex (g.copyAt m a) = some w.clone := by
      simp [Memory.vertex, SharedHeap.value, h.cells a ha w hw]
    rw [hv]
    rfl
  owners a ha := by
    obtain ⟨w, hw⟩ := Memory.live_iff.mp (ho.live a ha)
    simp [SharedHeap.owners, h.cells a ha w hw]
  rest b hb hn := by
    apply m'.vertices.unused
    by_contra hlt
    have hi : b - m.vertices.next < g.graph.length := by
      have := h.next
      omega
    refine hn (List.mem_map.mpr ⟨g.graph[b - m.vertices.next], List.getElem_mem hi, ?_⟩)
    rw [copyAt, ho.nodup.idxOf_getElem]
    omega
  next := by
    have := h.next
    omega

def ConnectionOf (m : Memory σ π) (e : DAGEdge) (c : DAGVertex.Connection σ π) : Prop :=
  ∃ a w, m.connection e = some a ∧ m.vertex a = some w ∧
    c = ⟨e.clone.clone, { w.clone.clone with incommingEdgeCount := 0 }⟩

lemma returns_cloneConnection {e : DAGEdge} {c : DAGVertex.Connection σ π} :
    Returns (DAGVertex.cloneConnection e) m c m' ↔ ConnectionOf m e c ∧ m' = m := by
  simp only [DAGVertex.cloneConnection, returns_bind, returns_lock_edge, returns_derefLocked,
    returns_cppAssert, returns_pure, ConnectionOf]
  constructor
  · rintro ⟨r, s, ⟨rfl, rfl⟩, w, t, ⟨a, ha, hw, rfl⟩, _, u, ⟨_, rfl⟩, rfl, rfl⟩
    exact ⟨⟨a, w, ha, hw, rfl⟩, rfl⟩
  · rintro ⟨⟨a, w, ha, hw, rfl⟩, rfl⟩
    exact ⟨some a, m', ⟨ha.symm, rfl⟩, w, m', ⟨a, rfl, hw, rfl⟩, (), m', ⟨rfl, rfl⟩, rfl, rfl⟩

lemma returns_cloneAllConnections {cs : List (DAGVertex.Connection σ π)} :
    Returns (DAGVertex.cloneAllConnections a) m cs m' ↔
      m.Live a ∧ List.Forall₂ (ConnectionOf m) (m.edges a) cs ∧ m' = m := by
  have hmap (es : List DAGEdge) : Returns (es.mapM DAGVertex.cloneConnection) m cs m' ↔
      List.Forall₂ (ConnectionOf m) es cs ∧ m' = m :=
    returns_mapM_reads (fun _ _ _ _ => returns_cloneConnection)
  simp only [DAGVertex.cloneAllConnections, returns_bind, returns_deref, Memory.live_iff]
  constructor
  · rintro ⟨w, s, ⟨hw, rfl⟩, h⟩
    exact ⟨⟨w, hw⟩, edges_of_vertex hw ▸ (hmap w.edges).mp h⟩
  · rintro ⟨⟨w, hw⟩, h⟩
    exact ⟨w, m, ⟨hw, rfl⟩, (hmap w.edges).mpr (edges_of_vertex hw ▸ h)⟩

/-- What a copy reads of a graph: its vertices, and what their edges observe. -/
def Sees (g : DAG) (m : Memory σ π) (x : Addr) : Prop :=
  x ∈ g.graph ∨ ∃ a ∈ g.graph, ∃ e ∈ m.edges a, e.connection = some x

/-- The vertices of `g'` stand for those of `g`, by their identifiers; what `g` sees is as it was. -/
structure Renames (g : DAG) (m : Memory σ π) (φ : Addr → Addr) (g' : DAG) (m' : Memory σ π) : Prop where
  graph : g'.graph = g.graph.map φ
  injective : ∀ a ∈ g.graph, ∀ b ∈ g.graph, φ a = φ b → a = b
  uuid : ∀ a ∈ g.graph, m'.uuid (φ a) = m.uuid a
  seen : ∀ x, g.Sees m x → m'.vertices.cell x = m.vertices.cell x
  apart : ∀ x, g.Sees m x → x ∉ g'.graph
  wellFormed : g'.WellFormed m'

namespace Renames

variable {g' : DAG} {φ : Addr → Addr} {e : DAGEdge} {c : DAGVertex.Connection σ π}

omit [TaskStage σ] [TaskCallbackPlugin π] in
lemma vertex (h : Renames g m φ g' m') (hx : g.Sees m x) : m'.vertex x = m.vertex x :=
  SharedHeap.value_of_cell_eq (h.seen x hx)

omit [TaskStage σ] [TaskCallbackPlugin π] in
lemma find (h : Renames g m φ g' m') (i : Option UUID) :
    g'.graph.find? (fun b => m'.uuid b = i) = (g.graph.find? (fun a => m.uuid a = i)).map φ := by
  rw [h.graph, List.find?_map]
  congr 1
  apply List.find?_congr
  intro a ha
  simp [h.uuid a ha]

omit [TaskStage σ] [TaskCallbackPlugin π] in
lemma connection (h : Renames g m φ g' m') (ha : a ∈ g.graph) (he : e ∈ m.edges a) :
    m'.connection e = m.connection e := by
  cases hc : e.connection with
  | none => simp [Memory.connection, hc]
  | some t => simp only [Memory.connection, hc, Option.filter_some, h.vertex (.inr ⟨a, ha, e, he, hc⟩)]

omit [TaskStage σ] [TaskCallbackPlugin π] in
lemma edges (h : Renames g m φ g' m') (ha : a ∈ g.graph) : m'.edges a = m.edges a := by
  simp only [Memory.edges, h.vertex (.inl ha)]

lemma found_iff (h : Renames g m φ g' m') (ha : a ∈ g.graph) (he : e ∈ m.edges a) (hc : ConnectionOf m' e c) :
    g'.Found m' c y ↔ ∃ b, g.resolve m e = some b ∧ φ b = y := by
  obtain ⟨t, w, ht, hw, rfl⟩ := hc
  rw [h.connection ha he] at ht
  have hu : m.uuid t = some w.uuid := by
    rw [h.vertex (.inr ⟨a, ha, e, he, (connection_eq_some.mp ht).1⟩)] at hw
    exact uuid_of_vertex hw
  rw [Found, h.find, resolve, ht, Option.bind_some, hu, Option.map_eq_some_iff]
  rfl

lemma exists_connections (h : Renames g m φ g' m') (ha : a ∈ g.graph) {es : List DAGEdge}
    (hes : ∀ e ∈ es, e ∈ m.edges a ∧ (g.resolve m e).isSome) : ∃ cs, List.Forall₂ (ConnectionOf m') es cs := by
  induction es with
  | nil => exact ⟨[], .nil⟩
  | cons e es ih =>
    obtain ⟨cs, hcs⟩ := ih (fun e' he' => hes e' (List.mem_cons_of_mem _ he'))
    obtain ⟨he, hres⟩ := hes e List.mem_cons_self
    obtain ⟨b, hb⟩ := Option.isSome_iff_exists.mp hres
    obtain ⟨t, ht, -⟩ := Option.bind_eq_some_iff.mp hb
    rw [← h.connection ha he] at ht
    obtain ⟨w, hw⟩ := Memory.live_iff.mp (connection_eq_some.mp ht).2
    exact ⟨_, .cons ⟨t, w, ht, hw, rfl⟩ hcs⟩

lemma found (h : Renames g m φ g' m') (ha : a ∈ g.graph) {es : List DAGEdge}
    {cs : List (DAGVertex.Connection σ π)} (hall : List.Forall₂ (ConnectionOf m') es cs)
    (hes : ∀ e ∈ es, e ∈ m.edges a ∧ (g.resolve m e).isSome) :
    List.Forall₂ (g'.Found m') cs ((es.filterMap (g.resolve m)).map φ) := by
  induction hall with
  | nil => exact .nil
  | cons hc hrest ih =>
    obtain ⟨he, hres⟩ := hes _ List.mem_cons_self
    obtain ⟨b, hb⟩ := Option.isSome_iff_exists.mp hres
    rw [List.filterMap_cons_some hb, List.map_cons]
    exact .cons ((h.found_iff ha he hc).mpr ⟨b, hb, rfl⟩)
      (ih (fun e' he' => hes e' (List.mem_cons_of_mem _ he')))

lemma resolves (h : Renames g m φ g' m') (ha : a ∈ g.graph) {es : List DAGEdge}
    {cs : List (DAGVertex.Connection σ π)} {ys : List Addr} (hall : List.Forall₂ (ConnectionOf m') es cs)
    (hfound : List.Forall₂ (g'.Found m') cs ys) (hes : ∀ e ∈ es, e ∈ m.edges a) :
    ∀ e ∈ es, (g.resolve m e).isSome := by
  induction hall generalizing ys with
  | nil => exact fun e he => absurd he List.not_mem_nil
  | @cons e₀ c₀ es cs hc hrest ih =>
    obtain ⟨y, zs, hy, hzs, rfl⟩ := List.forall₂_cons_left_iff.mp hfound
    intro e he
    rcases List.mem_cons.mp he with rfl | he
    · obtain ⟨b, hb, -⟩ := (h.found_iff ha (hes e List.mem_cons_self) hc).mp hy
      simp [hb]
    · exact ih hzs (fun e' he' => hes e' (List.mem_cons_of_mem _ he')) e he

omit [TaskStage σ] [TaskCallbackPlugin π] in
lemma frame (h : Renames g m φ g' m') (hf : Frame (· ∈ g'.graph) m' m'') (hg : g'.WellFormed m'') :
    Renames g m φ g' m'' where
  graph := h.graph
  injective := h.injective
  uuid a ha := (hf.uuid _).trans (h.uuid a ha)
  seen x hx := (hf.cell x (h.apart x hx)).trans (h.seen x hx)
  apart := h.apart
  wellFormed := hg

lemma cloneConnections (h : Renames g m φ g' m') (ho : g.Owned m) (ha : a ∈ g.graph)
    (hes : ∀ e ∈ m.edges a, (g.resolve m e).isSome) :
    ∃ m'', Returns (g'.cloneConnections a (φ a)) m' () m'' ∧ Renames g m φ g' m'' ∧ Frame (· ∈ g'.graph) m' m'' ∧
      m''.wrapped = m'.wrapped ∧
      m''.targets = Function.update m'.targets (φ a) (extend (m'.targets (φ a)) ((g.resolved m a).map φ)) := by
  have hφ : φ a ∈ g'.graph := h.graph ▸ List.mem_map_of_mem ha
  have hes' : ∀ e ∈ m.edges a, e ∈ m.edges a ∧ (g.resolve m e).isSome := fun e he => ⟨he, hes e he⟩
  obtain ⟨cs, hcs⟩ := h.exists_connections ha hes'
  obtain ⟨m'', hr, hg, hf, hw, ht⟩ := connectClones_returns hφ h.wellFormed (h.found ha hcs hes')
  refine ⟨m'', ?_, h.frame hf hg, hf, hw, ht⟩
  have hla : m'.Live a := by
    rw [Memory.Live, h.vertex (.inl ha)]
    exact ho.live a ha
  obtain ⟨v, hv⟩ := Memory.live_iff.mp hla
  obtain ⟨v', hv'⟩ := Memory.live_iff.mp (h.wellFormed.live _ hφ)
  have huuid : v.uuid = v'.uuid := by
    have hu := h.uuid a ha
    rw [uuid_of_vertex hv', Memory.uuid, ← h.vertex (.inl ha), hv] at hu
    simpa using hu.symm
  simp only [DAG.cloneConnections, returns_bind, returns_deref, returns_cppAssert]
  refine ⟨v, m', ⟨hv, rfl⟩, v', m', ⟨hv', rfl⟩, (), m', ⟨UUID.eq_iff.mpr huuid, rfl⟩, cs, m', ?_, hr⟩
  exact returns_cloneAllConnections.mpr ⟨hla, h.edges ha ▸ hcs, rfl⟩

lemma cloneConnections_resolves (h : Renames g m φ g' m') (ha : a ∈ g.graph)
    (hr : Returns (g'.cloneConnections a (φ a)) m' () m'') : ∀ e ∈ m.edges a, (g.resolve m e).isSome := by
  simp only [DAG.cloneConnections, returns_bind, returns_deref, returns_cppAssert,
    returns_cloneAllConnections] at hr
  obtain ⟨v, _, ⟨hv, rfl⟩, v', _, ⟨hv', rfl⟩, _, _, ⟨-, rfl⟩, cs, _, ⟨-, hcs, rfl⟩, hr⟩ := hr
  obtain ⟨ys, hys⟩ := connectClones_found (h.graph ▸ List.mem_map_of_mem ha) h.wellFormed hr
  rw [h.edges ha] at hcs
  exact h.resolves ha hcs hys (fun _ he => he)

lemma cloneEachConnection (h : Renames g m φ g' m') (ho : g.Owned m) {as : List Addr} (has : as.Sublist g.graph)
    (hes : ∀ a ∈ as, ∀ e ∈ m.edges a, (g.resolve m e).isSome) :
    ∃ m'', Returns (g'.cloneEachConnection as (as.map φ)) m' () m'' ∧ Renames g m φ g' m'' ∧
      Frame (· ∈ g'.graph) m' m'' ∧ m''.wrapped = m'.wrapped ∧
      ∀ a ∈ g.graph, m''.targets (φ a) =
        if a ∈ as then extend (m'.targets (φ a)) ((g.resolved m a).map φ) else m'.targets (φ a) := by
  induction as generalizing m' with
  | nil => exact ⟨m', by simp [DAG.cloneEachConnection], h, Frame.refl _ m', rfl, by simp⟩
  | cons b as ih =>
    have hb : b ∈ g.graph := has.subset List.mem_cons_self
    obtain ⟨m₁, hr₁, h₁, hf₁, hw₁, ht₁⟩ := h.cloneConnections ho hb (hes b List.mem_cons_self)
    obtain ⟨m₂, hr₂, h₂, hf₂, hw₂, ht₂⟩ := ih h₁ ((List.sublist_cons_self b as).trans has)
      (fun a ha => hes a (List.mem_cons_of_mem _ ha))
    have hbas : b ∉ as := (List.nodup_cons.mp (ho.nodup.sublist has)).1
    refine ⟨m₂, ?_, h₂, hf₁.trans hf₂, hw₂.trans hw₁, ?_⟩
    · rw [List.map_cons, DAG.cloneEachConnection]
      exact returns_bind.mpr ⟨(), m₁, hr₁, hr₂⟩
    · intro a ha
      rw [ht₂ a ha, ht₁]
      by_cases hab : a = b
      · subst hab
        simp [hbas]
      · have hne : φ a ≠ φ b := fun he => hab (h.injective a ha b hb he)
        simp [Function.update_of_ne hne, hab]

lemma cloneEachConnection_resolves (h : Renames g m φ g' m') (ho : g.Owned m) {as : List Addr} (has : as ⊆ g.graph)
    (hr : Returns (g'.cloneEachConnection as (as.map φ)) m' () m'') :
    ∀ a ∈ as, ∀ e ∈ m.edges a, (g.resolve m e).isSome := by
  induction as generalizing m' with
  | nil => simp
  | cons b as ih =>
    rw [List.map_cons, DAG.cloneEachConnection, returns_bind] at hr
    obtain ⟨_, m₁, hr₁, hr₂⟩ := hr
    have hb : b ∈ g.graph := has List.mem_cons_self
    have hres := h.cloneConnections_resolves hb hr₁
    obtain ⟨m₁', hr₁', h₁, -⟩ := h.cloneConnections ho hb hres
    obtain ⟨-, rfl⟩ := hr₁.unique hr₁'
    intro a ha
    rcases List.mem_cons.mp ha with rfl | ha
    · exact hres
    · exact ih h₁ (fun x hx => has (List.mem_cons_of_mem _ hx)) hr₂ a ha

end Renames

structure CloneInv (g : DAG) (m : Memory σ π) (φ : Addr → Addr) (g' : DAG) (m' : Memory σ π) :
    Prop where
  graph : g'.graph = g.graph.map φ
  copied : Copied g.graph φ m m'
  wellFormed : g'.WellFormed m'
  wrapped : m'.wrapped = m.wrapped

section CloneInv

variable {g' : DAG} {φ : Addr → Addr}

lemma CloneInv.renames (h : CloneInv g m φ g' m') (ho : g.Owned m) (hk : g.Known m) : Renames g m φ g' m' := by
  have hold : ∀ x, g.Sees m x → x < m.vertices.next := by
    rintro x (hx | ⟨a, ha, e, he, hx⟩)
    · exact vertex_lt (ho.live x hx)
    · exact hk a ha e he x hx
  refine ⟨h.graph, h.copied.injective, fun a ha => h.copied.uuid ha (ho.live a ha), fun x hx => h.copied.old x (hold x hx),
    fun x hx hg => ?_, h.wellFormed⟩
  obtain ⟨a, ha, rfl⟩ := List.mem_map.mp (h.graph ▸ hg)
  exact absurd (hold _ hx) (Nat.not_lt.mpr (h.copied.fresh a ha))

lemma CloneInv.frame (h : CloneInv g m φ g' m') (hf : Frame (· ∈ g'.graph) m' m'')
    (hg : g'.WellFormed m'') (hw : m''.wrapped = m'.wrapped) : CloneInv g m φ g' m'' where
  graph := h.graph
  copied := h.copied.frame (h.graph ▸ hf)
  wellFormed := hg
  wrapped := hw.trans h.wrapped

/-- What `clone` returns: copies of the vertices, each with the resolved edges of its original. -/
structure IsClone (g : DAG) (m : Memory σ π) (φ : Addr → Addr) (g' : DAG) (m' : Memory σ π) : Prop
    extends CloneInv g m φ g' m' where
  title : g'.title = g.title
  jsonConfig : g'.jsonConfig = g.jsonConfig
  targets : ∀ a ∈ g.graph, m'.targets (φ a) = extend [] ((g.resolved m a).map φ)

lemma CopyInv.cloneInv (h : g.CopyInv m g.graph m') (ho : g.Owned m) (hu : g.DistinctUuids m)
    (title : String) (config : Document) :
    CloneInv g m (g.copyAt m) ⟨g.graph.map (g.copyAt m), title, some config⟩ m' :=
  ⟨rfl, h.copied ho, h.wellFormed ho hu title config, h.wrapped⟩

lemma clone_returns (ho : g.Owned m) (hu : g.DistinctUuids m) (hk : g.Known m)
    (hc : g.jsonConfig.isSome) (hres : g.Resolves m) :
    ∃ g' m', Returns g.clone m g' m' ∧ IsClone g m (g.copyAt m) g' m' := by
  obtain ⟨m₁, hr₁, h₁⟩ := addClones_returns ho hu "" (some .null)
  have hI := h₁.cloneInv ho hu "" .null
  obtain ⟨m₂, hr₂, hren, hf, hw, ht₂⟩ := (hI.renames ho hk).cloneEachConnection ho (List.Sublist.refl _) hres
  have h₂ := hI.frame hf hren.wellFormed hw
  obtain ⟨config, hconfig⟩ := Option.isSome_iff_exists.mp hc
  refine ⟨⟨g.graph.map (g.copyAt m), g.title, some config⟩, m₂, ?_, ?_⟩
  · simp only [DAG.clone, returns_bind, hconfig, returns_pure]
    exact ⟨_, m₁, hr₁, (), m₂, hr₂, rfl, rfl⟩
  · refine ⟨⟨rfl, h₂.copied, h₂.wellFormed.of_eq rfl rfl, h₂.wrapped⟩, rfl, hconfig.symm, ?_⟩
    intro a ha
    have hnone : m₁.targets (g.copyAt m a) = [] := by
      obtain ⟨w, hw⟩ := Memory.live_iff.mp (ho.live a ha)
      have hv : m₁.vertex (g.copyAt m a) = some w.clone := by
        simp [Memory.vertex, SharedHeap.value, h₁.cells a ha w hw]
      rw [Memory.targets, edges_of_vertex hv]
      rfl
    rw [ht₂ a ha, if_pos ha, hnone]

lemma clone_resolves (ho : g.Owned m) (hu : g.DistinctUuids m) (hk : g.Known m) {g' : DAG}
    (hr : Returns g.clone m g' m') : g.Resolves m ∧ g.jsonConfig.isSome := by
  obtain ⟨m₁, hr₁, h₁⟩ := addClones_returns ho hu "" (some .null)
  have hI := h₁.cloneInv ho hu "" .null
  simp only [DAG.clone, returns_bind] at hr
  obtain ⟨g₁, m₁', hr₁', _, m₂, hr₂, hlast⟩ := hr
  obtain ⟨rfl, rfl⟩ := hr₁'.unique hr₁
  refine ⟨(hI.renames ho hk).cloneEachConnection_resolves ho (List.Subset.refl _) hr₂, ?_⟩
  cases hc : g.jsonConfig with
  | none =>
    rw [hc] at hlast
    exact absurd hlast returns_throw
  | some config => rfl

end CloneInv

lemma IsClone.targets_eq {g' : DAG} {φ : Addr → Addr} (h : IsClone g m φ g' m') (hg : g.WellFormed m)
    (ha : a ∈ g.graph) : m'.targets (φ a) = (m.targets a).map φ := by
  rw [h.targets a ha, hg.toClonable.resolved ha, extend_eq_append, List.nil_append]
  rw [List.nil_append]
  refine (hg.simple a ha).map_on ?_
  intro x hx y hy hxy
  exact h.copied.injective x (hg.inside.closed a ha x hx) y (hg.inside.closed a ha y hy) hxy

omit [TaskStage σ] [TaskCallbackPlugin π] in
lemma Clonable.edgeTargets (hg : g.Clonable m) (ha : a ∈ g.graph) :
    (m.edges a).map (fun e => e.connection.bind m.uuid) = (m.targets a).map m.uuid := by
  have hes : ∀ e ∈ m.edges a, ∃ c, e.connection = some c ∧ m.connection e = some c := by
    intro e he
    obtain ⟨c, -, hc⟩ := hg.connection ha he
    exact ⟨c, hc⟩
  rw [Memory.targets]
  generalize m.edges a = es at hes
  induction es with
  | nil => rfl
  | cons e es ih =>
    obtain ⟨c, hec, hc⟩ := hes e List.mem_cons_self
    rw [List.filterMap_cons_some hc, List.map_cons, List.map_cons, hec,
      ih (fun e' he' => hes e' (List.mem_cons_of_mem _ he'))]
    rfl

omit [TaskStage σ] [TaskCallbackPlugin π] in
lemma WellFormed.edges_length (hg : g.WellFormed m) (ha : a ∈ g.graph) :
    (m.edges a).length = (m.targets a).length := by
  have h := congrArg List.length (hg.toClonable.edgeTargets ha)
  simpa only [List.length_map] using h

structure Mirrored (m m' : Memory σ π) (a b : Addr) (v w : DAGVertex σ π) : Prop where
  original : m.vertex a = some v
  copy : m'.vertex b = some w
  uuid : w.uuid = v.uuid
  label : w.label = v.label
  currentStatus : w.currentStatus = v.currentStatus
  taskUuid : w.task.map Task.uuid = v.task.map Task.uuid
  taskLabel : w.task.map Task.label = v.task.map Task.label
  incommingEdgeCount : w.incommingEdgeCount = v.incommingEdgeCount
  edgeTargets : w.edges.map (fun e => e.connection.bind m'.uuid) =
    v.edges.map (fun e => e.connection.bind m.uuid)

/-- The same vertex, its edges aside. -/
structure Resembles (v w : DAGVertex σ π) : Prop where
  uuid : w.uuid = v.uuid
  label : w.label = v.label
  currentStatus : w.currentStatus = v.currentStatus
  taskUuid : w.task.map Task.uuid = v.task.map Task.uuid
  taskLabel : w.task.map Task.label = v.task.map Task.label

lemma Resembles.of_clone (hcore : w.core = v.clone) : Resembles v w := by
  have huuid := congrArg DAGVertex.uuid hcore
  have hlabel := congrArg DAGVertex.label hcore
  have hstatus := congrArg DAGVertex.currentStatus hcore
  have htask : w.task = v.task.map Task.clone := congrArg DAGVertex.task hcore
  refine ⟨huuid, hlabel, hstatus, ?_, ?_⟩
  · rw [htask, Option.map_map]
    rfl
  · rw [htask, Option.map_map]
    rfl

namespace Renames

variable {g' : DAG} {φ : Addr → Addr}

omit [TaskStage σ] [TaskCallbackPlugin π] in
lemma count_eq (h : Renames g m φ g' m') (hg : g.WellFormed m)
    (ht : ∀ b ∈ g.graph, m'.targets (φ b) = (m.targets b).map φ) (ha : a ∈ g.graph) : m'.count (φ a) = m.count a := by
  rw [h.wellFormed.counted (φ a) (h.graph ▸ List.mem_map_of_mem ha), hg.counted a ha, h.graph]
  refine inDegree_map ht ?_
  exact fun u hu w hw => h.injective w (hg.inside.closed u hu w hw) a ha

omit [TaskStage σ] [TaskCallbackPlugin π] in
lemma map_uuid (h : Renames g m φ g' m') (hg : g.WellFormed m) (ha : a ∈ g.graph) :
    ((m.targets a).map φ).map m'.uuid = (m.targets a).map m.uuid := by
  rw [List.map_map]
  exact List.map_congr_left fun c hc => h.uuid c (hg.inside.closed a ha c hc)

omit [TaskStage σ] [TaskCallbackPlugin π] in
lemma mirrored (h : Renames g m φ g' m') (hg : g.WellFormed m)
    (ht : ∀ b ∈ g.graph, m'.targets (φ b) = (m.targets b).map φ) (ha : a ∈ g.graph) (hv : m.vertex a = some v)
    (hw : m'.vertex (φ a) = some w) (hr : Resembles v w) : Mirrored m m' a (φ a) v w := by
  refine ⟨hv, hw, hr.uuid, hr.label, hr.currentStatus, hr.taskUuid, hr.taskLabel, ?_, ?_⟩
  · rw [← count_of_vertex hv, ← count_of_vertex hw, h.count_eq hg ht ha]
  · have hφ : φ a ∈ g'.graph := h.graph ▸ List.mem_map_of_mem ha
    rw [← edges_of_vertex hv, ← edges_of_vertex hw, hg.toClonable.edgeTargets ha,
      h.wellFormed.toClonable.edgeTargets hφ, ht a ha, h.map_uuid hg ha]

end Renames

lemma IsClone.renamesOf {g' : DAG} {φ : Addr → Addr} (h : IsClone g m φ g' m') (hg : g.WellFormed m) :
    Renames g m φ g' m' := h.renames hg.toOwned hg.toClonable.known

lemma IsClone.mirrored {g' : DAG} {φ : Addr → Addr} (h : IsClone g m φ g' m') (hg : g.WellFormed m)
    (ha : a ∈ g.graph) : ∃ v w, Mirrored m m' a (φ a) v w := by
  have hφ : φ a ∈ g'.graph := h.graph ▸ List.mem_map_of_mem ha
  obtain ⟨v, hv⟩ := Memory.live_iff.mp (hg.live a ha)
  obtain ⟨w, hw⟩ := Memory.live_iff.mp (h.wellFormed.live _ hφ)
  have hcore : w.core = v.clone := by
    have hc := h.copied.copy a ha v hv
    rw [hw] at hc
    exact Option.some.inj hc
  exact ⟨v, w, (h.renamesOf hg).mirrored hg (fun _ hb => h.targets_eq hg hb) ha hv hw (.of_clone hcore)⟩

/-- A clone is a faithful copy that shares no vertex with its original, which stays as it was. -/
theorem clone_faithful (hg : g.WellFormed m) :
    ∃ g' m', Returns g.clone m g' m' ∧ g'.title = g.title ∧ g'.jsonConfig = g.jsonConfig ∧
      List.Forall₂ (fun a b => ∃ v w, Mirrored m m' a b v w) g.graph g'.graph ∧
      (∀ b ∈ g'.graph, b ∉ g.graph) ∧ (∀ b ∈ g'.graph, ∀ c ∈ m'.targets b, c ∉ g.graph) ∧
      ∀ a ∈ g.graph, m'.vertices.cell a = m.vertices.cell a := by
  obtain ⟨g', m', hr, h⟩ := clone_returns hg.toOwned hg.uuids hg.toClonable.known hg.config hg.toClonable.resolves
  have hdisjoint : ∀ b ∈ g'.graph, b ∉ g.graph := by
    intro b hb hbg
    rw [h.graph] at hb
    obtain ⟨a, ha, rfl⟩ := List.mem_map.mp hb
    exact absurd (vertex_lt (hg.live _ hbg)) (Nat.not_lt.mpr (h.copied.fresh a ha))
  refine ⟨g', m', hr, h.title, h.jsonConfig, ?_, hdisjoint, ?_, ?_⟩
  · rw [h.graph, List.forall₂_map_right_iff]
    exact List.forall₂_same.mpr (fun a ha => h.mirrored hg ha)
  · exact fun b hb c hc => hdisjoint c (h.wellFormed.inside.closed b hb c hc)
  · exact fun a ha => h.copied.old a (vertex_lt (hg.live a ha))

theorem clone_faithful_sample :
    ∃ g' m', Returns Sample.dag.clone Sample.memory g' m' ∧ g'.title = Sample.dag.title ∧
      g'.jsonConfig = Sample.dag.jsonConfig ∧
      List.Forall₂ (fun a b => ∃ v w, Mirrored Sample.memory m' a b v w) Sample.dag.graph g'.graph ∧
      (∀ b ∈ g'.graph, b ∉ Sample.dag.graph) ∧
      (∀ b ∈ g'.graph, ∀ c ∈ m'.targets b, c ∉ Sample.dag.graph) ∧
      ∀ a ∈ Sample.dag.graph, m'.vertices.cell a = Sample.memory.vertices.cell a :=
  clone_faithful Sample.wellFormed

end DAG

end DagScheduler.Graphs

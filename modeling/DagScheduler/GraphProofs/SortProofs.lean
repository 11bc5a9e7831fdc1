import DagScheduler.GraphProofs.WellFormed
import DagScheduler.Library.Kahn

/-! The sort is Kahn's algorithm: its counters, queue and list satisfy the invariant of the
library between any two cuts. -/

namespace DagScheduler.Graphs

open Library Library.Programs Library.Digraphs

variable {σ π : Type} {m m' m₀ : Memory σ π} {V Q L : List Addr} {c t : Addr} {e : DAGEdge}
  {pre post : List DAGEdge} {w : DAGVertex σ π}

def DAGEdge.cut (e : DAGEdge) : DAGEdge := { e with connection := none }

lemma returns_connectTo_none (he : e.connection = some t)
    (ht : m.vertex t = some w) :
    Returns (e.connectTo none) m (false, e.cut) (m.sub t w.incommingEdgeCount) := by
  simp [DAGEdge.connectTo, he, filter_live (Memory.live_of_vertex ht), ht, DAGEdge.cut]

lemma connection_cut (m : Memory σ π) (e : DAGEdge) : m.connection e.cut = none := rfl

lemma filterMap_connection_of_none {es : List DAGEdge} (h : ∀ e ∈ es, e.connection = none) :
    es.filterMap m.connection = [] := by
  rw [List.filterMap_eq_nil_iff]
  intro e he
  simp [Memory.connection, h e he]

structure SortInv (V : List Addr) (m₀ m : Memory σ π) (curr : Option Addr) (Q L : List Addr) :
    Prop where
  frame : Frame (· ∈ V) m₀ m
  wrapped : m.wrapped = m₀.wrapped
  kahn : Kahn.Inv V m₀.targets m.targets m.count curr Q L
  todo : ∀ a ∈ V, a ∉ L → m.edges a = m₀.edges a
  length : ∀ a, (m.edges a).length = (m₀.edges a).length
  origin : ∀ a, ∀ e ∈ m.edges a, e ∈ m₀.edges a ∨ e.connection = none

/-- The edge `e` of `c` to `t` was cut, and `t` counts one edge less. -/
structure EdgeCut (V : List Addr) (m m' : Memory σ π) (c t : Addr) (pre : List DAGEdge) (e : DAGEdge)
    (post : List DAGEdge) : Prop where
  frame : Frame (· ∈ V) m m'
  wrapped : m'.wrapped = m.wrapped
  count : m'.count = Function.update m.count t (m.count t - 1)
  edges : m'.edges c = pre ++ e.cut :: post
  other : ∀ a, a ≠ c → m'.edges a = m.edges a

lemma edgeCut_modified (hc : c ∈ V) (ht : t ∈ V) (hlive : m.Live c)
    (hedges : m.edges c = pre ++ e :: post) (hw : m.vertex t = some w) (hpos : 0 < m.count t) :
    EdgeCut V m ((m.sub t w.incommingEdgeCount).modifyVertex c fun v =>
      { v with edges := v.edges.set pre.length e.cut }) c t pre e post := by
  let m₁ := m.sub t w.incommingEdgeCount
  have hf₁ : Frame (· ∈ V) m m₁ := (Frame.sub m t _).mono (fun a ha => ha ▸ ht)
  have hf₂ := (Frame.modifyVertex m₁ c (f := fun v => { v with edges := v.edges.set pre.length e.cut })
    (fun _ => rfl)).mono (T := (· ∈ V)) (fun a ha => ha ▸ hc)
  have hc₁ : m₁.edges c = pre ++ e :: post := (edges_sub _).trans hedges
  refine ⟨hf₁.trans hf₂, ?_, ?_, ?_, fun a ha => (edges_modifyVertex_ne _ ha).trans (edges_sub _)⟩
  · have hne : w.incommingEdgeCount ≠ 0 := by
      have := count_of_vertex hw
      omega
    simp [Memory.modifyVertex, Memory.sub, hne]
  · rw [← count_sub w.incommingEdgeCount (Memory.live_of_vertex hw) hpos]
    funext a
    exact count_modifyEdges _
  · obtain ⟨v₁, hv₁⟩ := Memory.live_iff.mp ((hf₁.live c).mpr hlive)
    have hv₁e : v₁.edges = pre ++ e :: post := (edges_of_vertex hv₁).symm.trans hc₁
    rw [edges_modifyEdges_self _ hv₁, hv₁e]
    simp

lemma EdgeCut.targets (h : EdgeCut V m m' c t pre e post)
    (hpre : ∀ e ∈ pre, e.connection = none) :
    m'.targets = Function.update m.targets c (post.filterMap m.connection) := by
  funext a
  by_cases ha : a = c
  · subst ha
    simp only [Function.update_self, Memory.targets, h.edges, List.filterMap_append,
      filterMap_connection_of_none hpre, List.nil_append, List.filterMap_cons, connection_cut,
      funext h.frame.connection]
  · rw [Function.update_of_ne ha]
    exact h.frame.targets (h.other a ha)

lemma targets_of_passed (hedges : m.edges c = pre ++ e :: post)
    (hpre : ∀ e ∈ pre, e.connection = none) (he : e.connection = some t) (ht : m.Live t) :
    m.targets c = t :: post.filterMap m.connection := by
  have hconn : m.connection e = some t := connection_eq_some.mpr ⟨he, ht⟩
  simp only [Memory.targets, hedges, List.filterMap_append, filterMap_connection_of_none hpre,
    List.nil_append, List.filterMap_cons, hconn]

lemma visitEdge_cuts (hc : c ∈ V) (ht : t ∈ V) (hlc : m.Live c)
    (hlt : m.Live t) (hedges : m.edges c = pre ++ e :: post) (he : e.connection = some t) (hpos : 0 < m.count t) :
    ∃ m', Returns (visitEdge c Q pre.length) m (if m.count t - 1 = 0 then Q ++ [t] else Q) m' ∧
      EdgeCut V m m' c t pre e post := by
  obtain ⟨v, hv⟩ := Memory.live_iff.mp hlc
  obtain ⟨w, hw⟩ := Memory.live_iff.mp hlt
  have hcut := edgeCut_modified hc ht hlc hedges hw hpos
  refine ⟨_, ?_, hcut⟩
  obtain ⟨w₂, hw₂⟩ := Memory.live_iff.mp ((hcut.frame.live t).mpr hlt)
  have hw₂c : w₂.incommingEdgeCount = m.count t - 1 := by
    rw [← count_of_vertex hw₂, hcut.count, Function.update_self]
  have hget : v.edges[pre.length]? = some e := by
    rw [← edges_of_vertex hv, hedges]
    simp
  simp only [visitEdge, returns_bind, returns_deref]
  refine ⟨v, m, ⟨hv, rfl⟩, ?_⟩
  simp only [hget, returns_bind, returns_lock]
  refine ⟨some t, m, ⟨by rw [he, filter_live hlt], rfl⟩, _, _, returns_connectTo_none he hw, ?_⟩
  simp only [returns_bind, returns_modifyVertex]
  refine ⟨(), _, rfl, ?_⟩
  simp only [returns_deref]
  refine ⟨w₂, _, ⟨hw₂, rfl⟩, ?_⟩
  by_cases hz : m.count t - 1 = 0
  · simp [DAGVertex.hasIncommingEdges, hw₂c, hz]
  · simp [DAGVertex.hasIncommingEdges, hw₂c, hz, Nat.pos_of_ne_zero hz]

lemma SortInv.cut (h : SortInv V m₀ m (some c) Q L) (hV : V.Nodup)
    (hc : c ∈ L) (hcut : EdgeCut V m m' c t pre e post) (hedges : m.edges c = pre ++ e :: post)
    (hpre : ∀ e ∈ pre, e.connection = none) (htargets : m.targets c = t :: post.filterMap m.connection) :
    SortInv V m₀ m' (some c) (if m.count t - 1 = 0 then Q ++ [t] else Q) L := by
  refine ⟨h.frame.trans hcut.frame, hcut.wrapped.trans h.wrapped, ?_, ?_, ?_, ?_⟩
  · rw [hcut.targets hpre, hcut.count]
    exact h.kahn.cut hV hc htargets
  · intro a ha hn
    rw [hcut.other a (fun he => hn (he ▸ hc))]
    exact h.todo a ha hn
  · intro a
    rw [← h.length]
    by_cases ha : a = c
    · rw [ha, hedges, hcut.edges, List.length_append, List.length_append, List.length_cons, List.length_cons]
    · rw [hcut.other a ha]
  · intro a e' he'
    by_cases ha : a = c
    · subst ha
      rw [hcut.edges, List.mem_append, List.mem_cons] at he'
      rcases he' with he' | rfl | he'
      · exact h.origin a e' (by simp [hedges, he'])
      · exact .inr rfl
      · exact h.origin a e' (by simp [hedges, he'])
    · rw [hcut.other a ha] at he'
      exact h.origin a e' he'

lemma visitEdge_returns (hV : V.Nodup)
    (hlive : ∀ a ∈ V, m₀.Live a) (h : SortInv V m₀ m (some c) Q L) (hc : c ∈ L)
    (hedges : m.edges c = pre ++ e :: post) (hpre : ∀ e ∈ pre, e.connection = none)
    (he : e.connection = some t) (ht : t ∈ V) :
    ∃ Q' m', Returns (visitEdge c Q pre.length) m Q' m' ∧ SortInv V m₀ m' (some c) Q' L ∧
      m'.edges c = (pre ++ [e.cut]) ++ post := by
  have hcV : c ∈ V := h.kahn.mem c (List.mem_append_left _ hc)
  have hlc : m.Live c := (h.frame.live c).mpr (hlive c hcV)
  have hlt : m.Live t := (h.frame.live t).mpr (hlive t ht)
  have htargets := targets_of_passed hedges hpre he hlt
  have hpos : 0 < m.count t := h.kahn.count_pos hc (by simp [htargets])
  obtain ⟨m', hr, hcut⟩ := visitEdge_cuts (Q := Q) hcV ht hlc hlt hedges he hpos
  exact ⟨_, m', hr, h.cut hV hc hcut hedges hpre htargets, by simpa using hcut.edges⟩

lemma visitEdges_returns (hV : V.Nodup) (hlive : ∀ a ∈ V, m₀.Live a) (hc : c ∈ L)
    (post : List DAGEdge) : ∀ {pre : List DAGEdge} {Q : List Addr} {m : Memory σ π},
      SortInv V m₀ m (some c) Q L → m.edges c = pre ++ post → (∀ e ∈ pre, e.connection = none) →
      (∀ e ∈ post, ∃ t ∈ V, e.connection = some t) →
      ∃ Q' m', Returns ((List.range' pre.length post.length).foldlM (visitEdge c) Q) m Q' m' ∧
        SortInv V m₀ m' (some c) Q' L ∧ m'.targets c = [] := by
  induction post with
  | nil =>
    intro pre Q m h hedges hpre _
    refine ⟨Q, m, by simp, h, ?_⟩
    simp only [Memory.targets, hedges, List.append_nil, filterMap_connection_of_none hpre]
  | cons e post ih =>
    intro pre Q m h hedges hpre hpost
    obtain ⟨t, ht, het⟩ := hpost e List.mem_cons_self
    obtain ⟨Q₁, m₁, hr, h₁, he₁⟩ := visitEdge_returns hV hlive h hc hedges hpre het ht
    have hpre₁ : ∀ e' ∈ pre ++ [e.cut], e'.connection = none := by
      intro e' he'
      rcases List.mem_append.mp he' with he' | he'
      · exact hpre e' he'
      · rw [List.mem_singleton.mp he']
        rfl
    obtain ⟨Q', m', hr', h', ht'⟩ := ih h₁ he₁ hpre₁ (fun e' he' => hpost e' (List.mem_cons_of_mem _ he'))
    refine ⟨Q', m', ?_, h', ht'⟩
    rw [List.length_append, List.length_singleton] at hr'
    rw [List.length_cons, List.range'_succ, returns_foldlM_cons]
    exact ⟨Q₁, m₁, hr, hr'⟩

lemma SortInv.pop (h : SortInv V m₀ m none (c :: Q) L) : SortInv V m₀ m (some c) Q (L ++ [c]) where
  frame := h.frame
  wrapped := h.wrapped
  kahn := h.kahn.pop
  todo a ha hn := h.todo a ha (fun hs => hn (List.mem_append_left _ hs))
  length := h.length
  origin := h.origin

lemma SortInv.finish (h : SortInv V m₀ m (some c) Q L) (ht : m.targets c = []) :
    SortInv V m₀ m none Q L where
  frame := h.frame
  wrapped := h.wrapped
  kahn := h.kahn.finish ht
  todo := h.todo
  length := h.length
  origin := h.origin

lemma sortLoop_returns (hV : V.Nodup) (hlive : ∀ a ∈ V, m₀.Live a)
    (hin : ∀ a ∈ V, ∀ e ∈ m₀.edges a, ∃ t ∈ V, e.connection = some t) (fuel : ℕ) :
    ∀ {Q L : List Addr} {m : Memory σ π}, SortInv V m₀ m none Q L → V.length ≤ L.length + fuel →
      ∃ L' m', Returns (sortLoop fuel Q L) m L' m' ∧ SortInv V m₀ m' none [] L' := by
  induction fuel with
  | zero =>
    intro Q L m h hfuel
    cases Q with
    | nil => exact ⟨L, m, by simp [sortLoop], h⟩
    | cons c Q =>
      have hle := (List.subperm_of_subset h.kahn.nodup h.kahn.mem).length_le
      simp only [List.length_append, List.length_cons] at hle
      omega
  | succ fuel ih =>
    intro Q L m h hfuel
    cases Q with
    | nil => exact ⟨L, m, by simp [sortLoop], h⟩
    | cons c Q =>
      have hcV : c ∈ V := h.kahn.mem c (by simp)
      have hcL : c ∉ L := by
        have hd := List.nodup_append.mp h.kahn.nodup
        exact fun hc => hd.2.2 c hc c List.mem_cons_self rfl
      obtain ⟨v, hv⟩ := Memory.live_iff.mp ((h.frame.live c).mpr (hlive c hcV))
      have hve : m.edges c = v.edges := edges_of_vertex hv
      have hpost : ∀ e ∈ v.edges, ∃ t ∈ V, e.connection = some t := by
        rw [← hve, h.todo c hcV hcL]
        exact hin c hcV
      obtain ⟨Q', m', hr, h', ht⟩ := visitEdges_returns hV hlive (by simp) v.edges h.pop
        (show m.edges c = [] ++ v.edges by simpa using hve) (by simp) hpost
      obtain ⟨L', m'', hr', h''⟩ := ih (h'.finish ht) (by simp; omega)
      refine ⟨L', m'', ?_, h''⟩
      simp only [sortLoop, returns_bind, returns_deref]
      rw [List.length_nil, ← List.range_eq_range'] at hr
      exact ⟨v, m, ⟨hv, rfl⟩, Q', m', hr, hr'⟩

lemma withoutIncommingEdges_returns {as : List Addr} (hlive : ∀ a ∈ as, m.Live a) :
    Returns (withoutIncommingEdges as) m (as.filter (fun a => m.count a = 0)) m := by
  induction as with
  | nil => simp [withoutIncommingEdges]
  | cons a as ih =>
    obtain ⟨v, hv⟩ := Memory.live_iff.mp (hlive a List.mem_cons_self)
    have hrest := ih (fun b hb => hlive b (List.mem_cons_of_mem _ hb))
    simp only [withoutIncommingEdges, returns_bind, returns_deref]
    refine ⟨v, m, ⟨hv, rfl⟩, _, m, hrest, ?_⟩
    rw [List.filter_cons, count_of_vertex hv]
    by_cases hz : v.incommingEdgeCount = 0
    · simp [DAGVertex.hasIncommingEdges, hz]
    · simp [DAGVertex.hasIncommingEdges, hz, Nat.pos_of_ne_zero hz]

variable [TaskStage σ] [TaskCallbackPlugin π]

def CloneOf (m : Memory σ π) (a : Addr) (v : DAGVertex σ π) : Prop :=
  ∃ w, m.vertex a = some w ∧ v = w.clone

lemma clone_core (v : DAGVertex σ π) : v.core.clone = v.clone := rfl

lemma CloneOf.of_core {m' : Memory σ π} {a : Addr} {v : DAGVertex σ π}
    (hcore : (m'.vertex a).map DAGVertex.core = (m.vertex a).map DAGVertex.core)
    (h : CloneOf m' a v) : CloneOf m a v := by
  obtain ⟨w, hw, rfl⟩ := h
  rw [hw] at hcore
  cases hw' : m.vertex a with
  | none => simp [hw'] at hcore
  | some w' =>
    have hc : w.core = w'.core := by simpa [hw'] using hcore
    exact ⟨w', hw', by rw [← clone_core w, hc, clone_core]⟩

lemma clones_returns {as : List Addr} (hlive : ∀ a ∈ as, m.Live a) :
    ∃ vs, Returns (as.mapM fun a => do pure (← deref a).clone) m vs m ∧ List.Forall₂ (CloneOf m) as vs := by
  apply mapM_reads
  intro a ha
  obtain ⟨w, hw⟩ := Memory.live_iff.mp (hlive a ha)
  exact ⟨w.clone, by simp [hw], w, hw, rfl⟩

lemma dagTopologicalSort_sorts {g : DAG} (ho : g.Owned m) (hin : g.EdgesInside m) (hcount : g.Counted m) :
    ∃ L sorted m', Returns (dagTopologicalSort g) m (L.length != g.graph.length, sorted) m' ∧
      SortInv g.graph m m' none [] L ∧ List.Forall₂ (CloneOf m) L sorted := by
  have hstart : SortInv g.graph m m none (g.graph.filter (fun a => m.count a = 0)) [] :=
    ⟨Frame.refl _ m, rfl, Kahn.Inv.start ho.nodup hin.closed hcount, fun _ _ _ => rfl, fun _ => rfl, fun _ _ => .inl⟩
  obtain ⟨L, m', hr, h⟩ := sortLoop_returns ho.nodup ho.live hin g.graph.length hstart (by simp)
  have hlive : ∀ a ∈ L, m'.Live a := fun a ha =>
    (h.frame.live a).mpr (ho.live a (h.kahn.mem a (by simpa using ha)))
  obtain ⟨sorted, hs, hall⟩ := clones_returns hlive
  refine ⟨L, sorted, m', ?_, h, hall.imp (fun a v hv => hv.of_core (h.frame.core a))⟩
  simp only [dagTopologicalSort, dagVerticesWithNoIncommingEdges, returns_bind, returns_pure]
  exact ⟨_, m, withoutIncommingEdges_returns ho.live, L, m', hr, sorted, m', hs, rfl, rfl⟩

lemma dagTopologicalSort_returns {g : DAG} (ho : g.Owned m) (hin : g.EdgesInside m)
    (hcount : g.Counted m) :
    ∃ L sorted m', Returns (dagTopologicalSort g) m (L.length != g.graph.length, sorted) m' ∧
      Frame (· ∈ g.graph) m m' ∧ m'.wrapped = m.wrapped ∧
      Kahn.Inv g.graph m.targets m'.targets m'.count none [] L ∧
      List.Forall₂ (CloneOf m) L sorted := by
  obtain ⟨L, sorted, m', hr, h, hall⟩ := dagTopologicalSort_sorts ho hin hcount
  exact ⟨L, sorted, m', hr, h.frame, h.wrapped, h.kahn, hall⟩

/-- The sort is Kahn's algorithm, on cyclic graphs too: what is left out is what a cycle reaches. -/
theorem dagTopologicalSort_spec {g : DAG} (ho : g.Owned m) (hin : g.EdgesInside m)
    (hcount : g.Counted m) :
    ∃ cyclic sorted m' L, Returns (dagTopologicalSort g) m (cyclic, sorted) m' ∧
      (cyclic = true ↔ ∃ a, Relation.TransGen (g.Connected m) a a) ∧
      L.Nodup ∧ List.Forall₂ (CloneOf m) L sorted ∧
      (∀ a, a ∈ L ↔ a ∈ g.graph ∧ ¬ BehindCycle (g.Connected m) a) ∧
      (∀ a b, g.Connected m a b → b ∈ L → a ∈ L ∧ L.idxOf a < L.idxOf b) ∧
      (g.Acyclic m → L.Perm g.graph) := by
  obtain ⟨L, sorted, m', hr, -, -, hk, hall⟩ := dagTopologicalSort_returns ho hin hcount
  have hclosed := hin.closed
  have heq := DAG.connected_eq hclosed
  have hnodup : L.Nodup := by simpa using hk.nodup
  have hlen := hk.length_eq_iff ho.nodup hclosed
  have hmem : ∀ a, a ∈ L ↔ a ∈ g.graph ∧ ¬ BehindCycle (g.Connected m) a := by
    intro a
    rw [heq]
    exact hk.mem_sorted_iff
  refine ⟨_, sorted, m', L, hr, ?_, hnodup, hall, hmem, ?_, ?_⟩
  · rw [bne_iff_ne, ne_eq, hlen, ← heq]
    simp only [Digraphs.Acyclic, not_forall, not_not]
  · intro a b hab hb
    have he := (DAG.connected_iff hclosed).mp hab
    exact ⟨hk.pred_mem hb he, hk.idxOf_lt hb he⟩
  · intro hac
    rw [List.perm_ext_iff_of_nodup hnodup ho.nodup]
    intro a
    rw [hmem]
    exact ⟨fun h => h.1, fun h => ⟨h, acyclic_iff_behind.mp hac a⟩⟩

theorem dagTopologicalSort_sample :
    ∃ cyclic sorted m' L, Returns (dagTopologicalSort Sample.dag) Sample.memory (cyclic, sorted) m' ∧
      (cyclic = true ↔ ∃ a, Relation.TransGen (Sample.dag.Connected Sample.memory) a a) ∧
      L.Nodup ∧ List.Forall₂ (CloneOf Sample.memory) L sorted ∧
      (∀ a, a ∈ L ↔ a ∈ Sample.dag.graph ∧ ¬ BehindCycle (Sample.dag.Connected Sample.memory) a) ∧
      (∀ a b, Sample.dag.Connected Sample.memory a b → b ∈ L → a ∈ L ∧ L.idxOf a < L.idxOf b) ∧
      (Sample.dag.Acyclic Sample.memory → L.Perm Sample.dag.graph) :=
  dagTopologicalSort_spec Sample.wellFormed.toOwned Sample.wellFormed.inside Sample.wellFormed.counted

end DagScheduler.Graphs

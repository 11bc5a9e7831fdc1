import DagScheduler.GraphProofs.CycleCheckProofs
import DagScheduler.GraphProofs.RemovalProofs
import DagScheduler.Graphs.Runs

/-! What one call of a client can do to a graph, said once for all invariants. -/

namespace DagScheduler.Graphs

open Library Library.Programs Library.Digraphs

variable {σ π : Type} {m m' m'' : Memory σ π} {g g' : DAG} {a b c : Addr} {v w : DAGVertex σ π}
  {vs : List (DAGVertex σ π)}

/-- The vertices that were there are as they were; there may be new ones. -/
structure Kept (m m' : Memory σ π) : Prop where
  cell : ∀ a, a < m.vertices.next → m'.vertices.cell a = m.vertices.cell a
  next : m.vertices.next ≤ m'.vertices.next
  wrapped : m'.wrapped = m.wrapped

lemma Untouched.kept (hm : Untouched m m') : Kept m m' := ⟨fun a _ => hm.cell a, hm.next, hm.wrapped⟩

namespace Kept

lemma trans (hm : Kept m m') (hm' : Kept m' m'') : Kept m m'' where
  cell a ha := (hm'.cell a (Nat.lt_of_lt_of_le ha hm.next)).trans (hm.cell a ha)
  next := hm.next.trans hm'.next
  wrapped := hm'.wrapped.trans hm.wrapped

lemma vertex (hm : Kept m m') (ha : a < m.vertices.next) : m'.vertex a = m.vertex a :=
  SharedHeap.value_of_cell_eq (hm.cell a ha)

lemma owners (hm : Kept m m') (ha : a < m.vertices.next) : m'.vertices.owners a = m.vertices.owners a :=
  SharedHeap.owners_of_cell_eq (hm.cell a ha)

lemma edges (hm : Kept m m') (ha : a < m.vertices.next) : m'.edges a = m.edges a := by
  simp only [Memory.edges, hm.vertex ha]

lemma uuid (hm : Kept m m') (ha : a < m.vertices.next) : m'.uuid a = m.uuid a := by
  simp only [Memory.uuid, hm.vertex ha]

lemma count (hm : Kept m m') (ha : a < m.vertices.next) : m'.count a = m.count a := by
  simp only [Memory.count, hm.vertex ha]

lemma live (hm : Kept m m') (ha : a < m.vertices.next) : m'.Live a ↔ m.Live a := by
  simp only [Memory.Live, hm.vertex ha]

end Kept

lemma kept_makeShared (m : Memory σ π) (v : DAGVertex σ π) :
    Kept m { m with vertices := m.vertices.makeShared v } where
  cell _ ha := m.vertices.cell_makeShared_ne v (Nat.ne_of_lt ha)
  next := Nat.le_succ _
  wrapped := rfl

lemma vertex_makeShared_self (m : Memory σ π) (v : DAGVertex σ π) :
    ({ m with vertices := m.vertices.makeShared v } : Memory σ π).vertex m.vertices.next = some v :=
  m.vertices.value_makeShared_self v

namespace DAG

lemma DistinctUuids.makeShared (hu : g.DistinctUuids m) (hlt : ∀ a ∈ g.graph, a < m.vertices.next)
    (hn : ∀ a ∈ g.graph, m.uuid a ≠ some v.uuid) :
    DistinctUuids { g with graph := g.graph ++ [m.vertices.next] }
      { m with vertices := m.vertices.makeShared v } := by
  have hm := kept_makeShared m v
  have hv := uuid_of_vertex (vertex_makeShared_self m v)
  intro a ha b hb hab
  rcases List.mem_append.mp ha with ha | ha <;> rcases List.mem_append.mp hb with hb | hb
  · rw [hm.uuid (hlt a ha), hm.uuid (hlt b hb)] at hab
    exact hu a ha b hb hab
  · rw [List.mem_singleton.mp hb, hm.uuid (hlt a ha), hv] at hab
    exact absurd hab (hn a ha)
  · rw [List.mem_singleton.mp ha, hm.uuid (hlt b hb), hv] at hab
    exact absurd hab.symm (hn b hb)
  · rw [List.mem_singleton.mp ha, List.mem_singleton.mp hb]

lemma nodup_append_next (hn : g.graph.Nodup) (hlt : ∀ a ∈ g.graph, a < m.vertices.next) :
    (g.graph ++ [m.vertices.next]).Nodup := by
  refine List.nodup_append.mpr ⟨hn, List.nodup_singleton _, ?_⟩
  rintro a ha _ hb rfl
  exact Nat.ne_of_lt (hlt a ha) (List.mem_singleton.mp hb)

lemma Clonable.targets_kept (hg : g.Clonable m) (hm : Kept m m') (ha : a ∈ g.graph) :
    m'.targets a = m.targets a := by
  rw [Memory.targets, hm.edges (vertex_lt (hg.live a ha))]
  apply List.filterMap_congr
  intro e he
  obtain ⟨c, hc, hec⟩ := hg.inside a ha e he
  have hlive := hg.live c hc
  rw [connection_eq_some.mpr ⟨hec, hlive⟩, connection_eq_some]
  exact ⟨hec, (hm.live (vertex_lt hlive)).mpr hlive⟩

lemma Clonable.kept (hg : g.Clonable m) (hm : Kept m m') : g.Clonable m' := by
  have hlt : ∀ a ∈ g.graph, a < m.vertices.next := fun a ha => vertex_lt (hg.live a ha)
  refine ⟨⟨hg.nodup, fun a ha => (hm.live (hlt a ha)).mpr (hg.live a ha)⟩, ?_, ?_, hg.config⟩
  · intro a ha e he
    rw [hm.edges (hlt a ha)] at he
    exact hg.inside a ha e he
  · intro a ha b hb hab
    rw [hm.uuid (hlt a ha), hm.uuid (hlt b hb)] at hab
    exact hg.uuids a ha b hb hab

lemma WellFormed.kept (hg : g.WellFormed m) (hm : Kept m m') : g.WellFormed m' := by
  have htargets : ∀ a ∈ g.graph, m'.targets a = m.targets a := fun a ha => hg.toClonable.targets_kept hm ha
  refine ⟨hg.toClonable.kept hm, ?_, ?_⟩
  · intro a ha
    rw [hm.count (vertex_lt (hg.live a ha)), inDegree_congr htargets]
    exact hg.counted a ha
  · intro a ha
    rw [htargets a ha]
    exact hg.simple a ha

lemma Clonable.targets_addVertex (hg : g.Clonable m) (hv : v.Disconnected) :
    (∀ a ∈ g.graph, ({ m with vertices := m.vertices.makeShared v } : Memory σ π).targets a = m.targets a) ∧
      ({ m with vertices := m.vertices.makeShared v } : Memory σ π).targets m.vertices.next = [] := by
  constructor
  · exact fun a ha => hg.targets_kept (kept_makeShared m v) ha
  · rw [Memory.targets, edges_of_vertex (vertex_makeShared_self m v), hv.edges, List.filterMap_nil]

lemma Clonable.connected_addVertex (hg : g.Clonable m) (hv : v.Disconnected) :
    Connected { g with graph := g.graph ++ [m.vertices.next] } { m with vertices := m.vertices.makeShared v } =
      g.Connected m := by
  obtain ⟨hsame, hnone⟩ := hg.targets_addVertex hv
  funext a b
  refine propext ⟨?_, fun hab => ⟨List.mem_append_left _ hab.1, List.mem_append_left _ hab.2.1, ?_⟩⟩
  · rintro ⟨ha, -, hab⟩
    rcases List.mem_append.mp ha with ha | ha
    · rw [hsame a ha] at hab
      exact ⟨ha, hg.inside.closed a ha b hab, hab⟩
    · rw [List.mem_singleton.mp ha, hnone] at hab
      exact absurd hab List.not_mem_nil
  · rw [hsame a hab.1]
    exact hab.2.2

lemma WellFormed.addVertex (hg : g.WellFormed m) (hv : v.Disconnected) (hn : ∀ a ∈ g.graph, m.uuid a ≠ some v.uuid) :
    WellFormed { g with graph := g.graph ++ [m.vertices.next] } { m with vertices := m.vertices.makeShared v } := by
  have hlt : ∀ a ∈ g.graph, a < m.vertices.next := fun a ha => vertex_lt (hg.live a ha)
  have hold := hg.kept (kept_makeShared m v)
  have hnew := vertex_makeShared_self m v
  obtain ⟨hsame, hnone⟩ := hg.toClonable.targets_addVertex hv
  have hmem {P : Addr → Prop} (hP : ∀ a ∈ g.graph, P a) (hP' : P m.vertices.next) :
      ∀ a ∈ g.graph ++ [m.vertices.next], P a := by
    intro a ha
    rcases List.mem_append.mp ha with ha | ha
    · exact hP a ha
    · rw [List.mem_singleton.mp ha]
      exact hP'
  have hdeg : ∀ c, inDegree (g.graph ++ [m.vertices.next])
      ({ m with vertices := m.vertices.makeShared v } : Memory σ π).targets c =
        inDegree g.graph ({ m with vertices := m.vertices.makeShared v } : Memory σ π).targets c := by
    intro c
    rw [inDegree_append, inDegree_cons, inDegree_nil, hnone]
    rfl
  refine ⟨⟨⟨nodup_append_next hg.nodup hlt, ?_⟩, ?_, hg.uuids.makeShared hlt hn, hg.config⟩, ?_, ?_⟩
  · exact hmem hold.live (Memory.live_of_vertex hnew)
  · refine hmem (fun a ha e he => ?_) (fun e he => ?_)
    · obtain ⟨b, hb, heb⟩ := hold.inside a ha e he
      exact ⟨b, List.mem_append_left _ hb, heb⟩
    · rw [edges_of_vertex hnew, hv.edges] at he
      exact absurd he List.not_mem_nil
  · refine hmem (fun a ha => (hold.counted a ha).trans (hdeg a).symm) ?_
    rw [hdeg, count_of_vertex hnew, hv.incommingEdgeCount, eq_comm, inDegree_eq_zero]
    intro u hu hin
    exact Nat.lt_irrefl _ (hlt _ (hold.inside.closed u hu _ hin))
  · refine hmem hold.simple ?_
    rw [hnone]
    exact List.nodup_nil

/-- What every graph of a client satisfies, whatever the client passes. -/
structure Base (g : DAG) (m : Memory σ π) : Prop where
  nodup : g.graph.Nodup
  sole : ∀ a ∈ g.graph, m.vertices.owners a = 1
  uuids : g.DistinctUuids m
  known : g.Known m
  config : g.jsonConfig.isSome

lemma Base.live (hg : g.Base m) (ha : a ∈ g.graph) : m.Live a := by
  have hs := hg.sole a ha
  simp only [SharedHeap.owners] at hs
  cases hc : m.vertices.cell a with
  | none => simp [hc] at hs
  | some c => simp [Memory.Live, Memory.vertex, SharedHeap.value, hc]

lemma Base.owned (hg : g.Base m) : g.Owned m := ⟨hg.nodup, fun _ ha => hg.live ha⟩

lemma Base.lt (hg : g.Base m) (ha : a ∈ g.graph) : a < m.vertices.next := vertex_lt (hg.live ha)

/-- What a call does that removes nothing, one change after the other. -/
inductive Grow (vs : List (DAGVertex σ π)) : DAG × Memory σ π → DAG × Memory σ π → Prop
  | untouched {g : DAG} {m m' : Memory σ π} (hm : Untouched m m') : Grow vs (g, m) (g, m')
  | edge {g : DAG} {m : Memory σ π} {a b : Addr} (ha : a ∈ g.graph) (hb : b ∈ g.graph)
      (hn : b ∉ m.targets a) (hc : Digraphs.Acyclic (g.resolvedWith m a b)) :
      Grow vs (g, m) (g, m.addEdge a b)
  | vertex {g : DAG} {m : Memory σ π} {v : DAGVertex σ π} (hv : v ∈ vs)
      (hn : ∀ a ∈ g.graph, m.uuid a ≠ some v.uuid) :
      Grow vs (g, m) ({ g with graph := g.graph ++ [m.vertices.next] },
        { m with vertices := m.vertices.makeShared v })

abbrev Growth (vs : List (DAGVertex σ π)) : DAG × Memory σ π → DAG × Memory σ π → Prop :=
  Relation.ReflTransGen (Grow vs)

lemma Base.grow (hg : g.Base m) (hvs : ∀ v ∈ vs, v.Known m) (hs : Grow vs (g, m) (g', m')) :
    g'.Base m' := by
  cases hs with
  | untouched hm =>
    refine ⟨hg.nodup, fun a ha => (hm.owners a).trans (hg.sole a ha), ?_, ?_, hg.config⟩
    · intro a ha b hb hab
      rw [hm.uuid, hm.uuid] at hab
      exact hg.uuids a ha b hb hab
    · intro a ha e he c hc
      rw [hm.edges] at he
      exact (hg.known a ha e he c hc).trans_le hm.next
  | @edge _ _ a b ha hb hn hc =>
    have hf := Frame.addEdge m a b
    refine ⟨hg.nodup, fun c hc => (hf.owners c).trans (hg.sole c hc), hg.uuids.frame hf, ?_, hg.config⟩
    intro x hx e he c hec
    rw [hf.next]
    by_cases hxa : x = a
    · subst hxa
      rw [edges_addEdge_self (hg.live hx)] at he
      rcases List.mem_append.mp he with he | he
      · exact hg.known x hx e he c hec
      · rw [List.mem_singleton.mp he] at hec
        exact Option.some.inj hec ▸ hg.lt hb
    · rw [edges_addEdge_ne m a b hxa] at he
      exact hg.known x hx e he c hec
  | @vertex _ _ v hv hn =>
    have hm := kept_makeShared m v
    have hlt : ∀ a ∈ g.graph, a < m.vertices.next := fun a ha => hg.lt ha
    refine ⟨nodup_append_next hg.nodup hlt, ?_, hg.uuids.makeShared hlt hn, ?_, hg.config⟩
    · intro a ha
      rcases List.mem_append.mp ha with ha | ha
      · exact (hm.owners (hlt a ha)).trans (hg.sole a ha)
      · rw [List.mem_singleton.mp ha]
        simp [SharedHeap.owners]
    · intro a ha e he c hc
      rcases List.mem_append.mp ha with ha | ha
      · rw [hm.edges (hlt a ha)] at he
        exact (hg.known a ha e he c hc).trans_le hm.next
      · rw [List.mem_singleton.mp ha, edges_of_vertex (vertex_makeShared_self m v)] at he
        exact (hvs v hv e he c hc).trans_le hm.next

lemma Grow.next {s s' : DAG × Memory σ π} (hs : Grow vs s s') :
    s.2.vertices.next ≤ s'.2.vertices.next := by
  cases hs with
  | untouched hm => exact hm.next
  | edge _ _ _ _ => exact (Frame.addEdge _ _ _).next.ge
  | vertex _ _ => exact Nat.le_succ _

lemma known_mono {v : DAGVertex σ π} (hv : v.Known m) (hn : m.vertices.next ≤ m'.vertices.next) :
    v.Known m' := fun e he c hc => (hv e he c hc).trans_le hn

lemma Growth.induct {I : DAG → Memory σ π → Prop} {s s' : DAG × Memory σ π} (hs : Growth vs s s')
    (hstep : ∀ g m g' m', g.Base m → (∀ v ∈ vs, v.Known m) → I g m → Grow vs (g, m) (g', m') → I g' m')
    (hb : s.1.Base s.2) (hvs : ∀ v ∈ vs, v.Known s.2) (hI : I s.1 s.2) :
    s'.1.Base s'.2 ∧ (∀ v ∈ vs, v.Known s'.2) ∧ I s'.1 s'.2 := by
  induction hs with
  | refl => exact ⟨hb, hvs, hI⟩
  | tail _ hlast ih =>
    obtain ⟨hb', hvs', hI'⟩ := ih
    exact ⟨hb'.grow hvs' hlast, fun v hv => known_mono (hvs' v hv) hlast.next,
      hstep _ _ _ _ hb' hvs' hI' hlast⟩

lemma Growth.base {s s' : DAG × Memory σ π} (hs : Growth vs s s') (hb : s.1.Base s.2)
    (hvs : ∀ v ∈ vs, v.Known s.2) : s'.1.Base s'.2 :=
  (hs.induct (I := fun _ _ => True) (fun _ _ _ _ _ _ _ _ => trivial) hb hvs trivial).1

lemma resolvedWith_untouched (hm : Untouched m m') : g.resolvedWith m' a b = g.resolvedWith m a b := by
  have hresolve : g.resolve m' = g.resolve m := by
    funext e
    simp only [resolve, hm.connection, hm.uuid]
  funext u v
  simp only [resolvedWith, Edge, resolved, hm.edges, hresolve]

lemma withLabel_unique (hg : g.Owned m) {l : String} {r : List Addr}
    (hr : Returns (withLabel l g.graph) m r m') : m' = m :=
  (hr.unique (withLabel_returns hg.live)).2

lemma addVertex_growth (hg : g.Base m) (hv : v ∈ vs) {r : Bool × DAG × DAGVertex σ π}
    (hr : Returns (g.addVertex v) m r m') : Growth vs (g, m) (r.2.1, m') := by
  rw [returns_addVertex hg.owned] at hr
  split_ifs at hr with hany
  · obtain ⟨rfl, rfl⟩ := hr
    exact .refl
  · obtain ⟨rfl, rfl⟩ := hr
    refine .single (.vertex hv ?_)
    intro a ha hu
    exact hany (List.any_eq_true.mpr ⟨a, ha, decide_eq_true hu⟩)

variable [TaskStage σ] [TaskCallbackPlugin π]

lemma connect_growth (hg : g.Base m) {reply : Reply σ π} (hr : Returns (g.connect v w) m reply m') :
    Growth vs (g, m) (g, m') := by
  rcases connect_cases hg.owned hg.uuids hg.known hr with hm | ⟨a, ha, b, hb, m₁, hm, rfl, hn, hc⟩
  · exact .single (.untouched hm)
  · refine .tail (.single (.untouched hm)) (.edge ha hb ?_ ?_)
    · rw [hm.targets]
      exact hn
    · rw [resolvedWith_untouched hm]
      exact hc

lemma connectByUuid_growth (hg : g.Base m) {u1 u2 : UUID} {reply : Reply σ π}
    (hr : Returns (g.connectByUuid u1 u2) m reply m') : Growth vs (g, m) (g, m') := by
  simp only [connectByUuid, returns_bind, returns_derefLocked] at hr
  obtain ⟨x, _, hx, y, _, hy, v, _, ⟨_, _, _, rfl⟩, w, _, ⟨_, _, _, rfl⟩, hr⟩ := hr
  obtain ⟨-, rfl⟩ := (returns_findVertexByUuid hg.owned).mp hx
  obtain ⟨-, rfl⟩ := (returns_findVertexByUuid hg.owned).mp hy
  exact connect_growth hg hr

lemma connectPairs_growth {pairs : List (Addr × Addr)} {ret : Bool} {reply : Reply σ π} (hg : g.Base m)
    (hvs : ∀ v ∈ vs, v.Known m) (hr : Returns (g.connectPairs ret pairs) m reply m') :
    Growth vs (g, m) (g, m') := by
  induction pairs generalizing m ret with
  | nil =>
    obtain ⟨-, rfl⟩ := returns_pure.mp hr
    exact .refl
  | cons p pairs ih =>
    simp only [connectPairs, returns_bind, returns_deref] at hr
    obtain ⟨v, _, ⟨-, rfl⟩, w, _, ⟨-, rfl⟩, reply', m₁, hconn, hr⟩ := hr
    have hgrow : Growth vs (g, _) (g, m₁) := connect_growth hg hconn
    cases reply' with
    | error e =>
      obtain ⟨-, rfl⟩ := returns_pure.mp hr
      exact hgrow
    | ok b =>
      have hvs₁ : ∀ v ∈ vs, v.Known m₁ :=
        (hgrow.induct (I := fun _ _ => True) (fun _ _ _ _ _ _ _ _ => trivial) hg hvs trivial).2.1
      exact hgrow.trans (ih (hgrow.base hg hvs) hvs₁ hr)

lemma connectAllByLabel_growth (hg : g.Base m) {l1 l2 : String} {reply : Reply σ π}
    (hr : Returns (g.connectAllByLabel l1 l2) m reply m') : Growth [] (g, m) (g, m') := by
  simp only [connectAllByLabel, findAllVerticiesWithLabel, returns_bind] at hr
  obtain ⟨x, _, hx, y, _, hy, hr⟩ := hr
  obtain rfl := withLabel_unique hg.owned hx
  obtain rfl := withLabel_unique hg.owned hy
  exact connectPairs_growth hg (fun _ hv => absurd hv List.not_mem_nil) hr

lemma addAndConnect_growth (hg : g.Base m) (hv : v.Known m) (hw : w.Known m) {r : Reply σ π × DAG}
    (hr : Returns (g.addAndConnect v w) m r m') : Growth [v, w] (g, m) (r.2, m') := by
  have hvs : ∀ x ∈ [v, w], x.Known m := by simpa using ⟨hv, hw⟩
  simp only [addAndConnect, returns_bind, returns_derefLocked, returns_pure] at hr
  obtain ⟨r₁, m₁, h₁, r₂, m₂, h₂, x, _, hx, y, _, hy, _, _, ⟨_, _, _, rfl⟩, _, _, ⟨_, _, _, rfl⟩,
    reply, _, hconn, rfl, rfl⟩ := hr
  have hg₁ : Growth [v, w] (g, m) (r₁.2.1, m₁) := addVertex_growth hg (by simp) h₁
  have hb₁ : r₁.2.1.Base m₁ := hg₁.base hg hvs
  have hg₂ : Growth [v, w] (r₁.2.1, m₁) (r₂.2.1, m₂) := addVertex_growth hb₁ (by simp) h₂
  have hg₁₂ : Growth [v, w] (g, m) (r₂.2.1, m₂) := hg₁.trans hg₂
  have hb₂ : r₂.2.1.Base m₂ := hg₁₂.base hg hvs
  obtain ⟨-, rfl⟩ := (returns_findVertex hb₂.owned).mp hx
  obtain ⟨-, rfl⟩ := (returns_findVertex hb₂.owned).mp hy
  exact hg₁₂.trans (connect_growth hb₂ hconn)

end DAG

namespace Call

def vertices : Call σ π → List (DAGVertex σ π)
  | addVertex v => [v]
  | addAndConnect v1 v2 => [v1, v2]
  | _ => []

def removes (m : Memory σ π) : Call σ π → Addr → Bool
  | removeVertex (.value v) => DAG.Matches m v
  | removeVertex (.object a) => fun b => (m.vertex a).any fun v => DAG.Matches m v b
  | removeVertexByUuid id => fun a => decide (m.uuid a = some id)
  | removeAllVertexWithLabel label => DAG.HasLabel m label
  | reset => fun _ => true
  | _ => fun _ => false

end Call

namespace DAG

variable [TaskStage σ] [TaskCallbackPlugin π]

inductive Effect (call : Call σ π) (g : DAG) (m : Memory σ π) : DAG → List DAG → Memory σ π → Prop
  | growth {g' : DAG} {m' : Memory σ π} (hs : Growth call.vertices (g, m) (g', m')) :
      Effect call g m g' [] m'
  | removal {m' : Memory σ π} (hs : Removal g m (g.graph.filter (call.removes m)) m') :
      Effect call g m { g with graph := g.graph.filter fun a => !call.removes m a } [] m'
  | clone {k : DAG} {m' : Memory σ π} (hs : IsClone g m (g.copyAt m) k m') : Effect call g m g [k] m'

omit [TaskStage σ] [TaskCallbackPlugin π] in
/-- The client's pointer keeps the vertex alive, so `remove_vertex` takes just what matches. -/
lemma removeVertexHeld_returns (hg : g.Base m) {r : VertexRef σ π} {v : DAGVertex σ π} (hr : Returns r.read m v m) :
    ∃ m', Returns (g.removeVertexHeld r) m
        (!(g.graph.filter (Matches m v)).isEmpty, { g with graph := g.graph.filter fun a => !Matches m v a }) m' ∧
      Removal g m (g.graph.filter (Matches m v)) m' := by
  by_cases hheld : ∃ a ∈ g.graph, r = .object a
  · obtain ⟨a, ha, rfl⟩ := hheld
    obtain ⟨hv, -⟩ := returns_deref.mp hr
    have hone : [a].Nodup := List.nodup_singleton a
    have hlive : ∀ b ∈ [a], m.Live b := fun b hb => List.mem_singleton.mp hb ▸ hg.live ha
    have hpos : 0 < m.vertices.owners a := by
      rw [hg.sole a ha]
      exact Nat.one_pos
    obtain ⟨g', m', hremove, htake⟩ := (TakeInv.start (g := g) hlive hone).step hg.owned hg.uuids hpos ha
      List.not_mem_nil List.not_mem_nil
    have hrem := htake.finish hone fun b hb => List.mem_singleton.mp hb ▸ hg.sole a ha
    have hkept : (g.graph.filter fun b => !decide (b ∈ [a])) = g.graph.filter fun b => !Matches m v b := by
      apply List.filter_congr
      intro b hb
      simp [matches_eq hg.uuids ha hv b hb]
    rw [filter_matches hg.owned hg.uuids ha hv, ← hkept]
    refine ⟨_, ?_, hrem⟩
    simp only [removeVertexHeld, VertexRef.held, if_pos ha, returns_bind, returns_modify, returns_pure]
    refine ⟨(), _, rfl, (true, g'), m', hremove, (), _, rfl, ?_, rfl⟩
    rw [htake.graph]
    rfl
  · have hnone : r.held g = [] := by
      cases r with
      | value w => rfl
      | object a => exact if_neg fun ha => hheld ⟨a, ha, rfl⟩
    have hkept : g.Outlives m r := by
      cases r with
      | value w => trivial
      | object a => exact .of_notMem fun ha => hheld ⟨a, ha, rfl⟩
    obtain ⟨m', hremove, hd, hown⟩ := removeVertex_returns hg.owned hg.uuids hr hkept
    refine ⟨_, ?_, hd.release (hg.nodup.filter _) hown (fun a ha => hg.sole a (List.mem_filter.mp ha).1) g⟩
    simp only [removeVertexHeld, hnone, returns_bind, returns_modify, returns_pure]
    exact ⟨(), m, rfl, _, _, hremove, (), _, rfl, rfl, rfl⟩

omit [TaskStage σ] [TaskCallbackPlugin π] in
/-- Where the reference is stale the first comparison fails, so there was none. -/
lemma removeVertexHeld_stale (hg : g.Base m) {a : Addr} (hv : m.vertex a = none) {x : Bool × DAG}
    (hr : Returns (g.removeVertexHeld (.object a)) m x m') : g.graph = [] ∧ x = (false, g) ∧ m' = m := by
  have ha : a ∉ g.graph := fun ha => by
    have hlive := hg.live ha
    simp [Memory.Live, hv] at hlive
  simp only [removeVertexHeld, VertexRef.held, if_neg ha, returns_bind, returns_modify, returns_pure] at hr
  obtain ⟨-, t, rfl, y, t', hremove, -, t'', rfl, rfl, rfl⟩ := hr
  obtain ⟨graph, title, config⟩ := g
  cases graph with
  | nil =>
    obtain ⟨rfl, rfl⟩ := hremove.unique (eraseIf_none (m := m) (by simp))
    exact ⟨rfl, rfl, rfl⟩
  | cons b bs =>
    have hv' : (m.retain []).vertex a = none := hv
    simp [removeVertex, eraseIf, removeIf, detachIf, VertexRef.read, hv'] at hremove

omit [TaskStage σ] [TaskCallbackPlugin π] in
lemma removeVertex_effect (hg : g.Base m) {r : VertexRef σ π} {b : Bool}
    (hr : Returns (g.removeVertexHeld r) m (b, g') m') :
    Removal g m (g.graph.filter ((Call.removeVertex r).removes m)) m' ∧
      g' = { g with graph := g.graph.filter fun a => !(Call.removeVertex r).removes m a } := by
  have hread : ∀ v, Returns r.read m v m → (Call.removeVertex r).removes m = Matches m v →
      Removal g m (g.graph.filter ((Call.removeVertex r).removes m)) m' ∧
        g' = { g with graph := g.graph.filter fun a => !(Call.removeVertex r).removes m a } := by
    intro v hv hp
    obtain ⟨m₁, hr₁, hrem⟩ := removeVertexHeld_returns hg hv
    obtain ⟨he, rfl⟩ := hr.unique hr₁
    rw [hp]
    exact ⟨hrem, (Prod.mk.inj he).2⟩
  cases r with
  | value v => exact hread v (returns_pure.mpr ⟨rfl, rfl⟩) rfl
  | object a =>
    cases hv : m.vertex a with
    | some v =>
      refine hread v (returns_deref.mpr ⟨hv, rfl⟩) ?_
      funext b
      simp [Call.removes, hv]
    | none =>
      obtain ⟨hnil, he, rfl⟩ := removeVertexHeld_stale hg hv hr
      obtain ⟨graph, title, config⟩ := g
      obtain rfl : graph = [] := hnil
      exact ⟨(Detached.refl _).release List.nodup_nil (fun _ => rfl) (by simp) _, (Prod.mk.inj he).2⟩

lemma perform_effect (hg : g.Base m) {call : Call σ π} (ho : call.Offered m) {made : List DAG}
    (hr : Returns (call.perform g) m (g', made) m') : Effect call g m g' made m' := by
  cases call with
  | addVertex v =>
    simp only [Call.perform, returns_bind, returns_pure, Prod.mk.injEq] at hr
    obtain ⟨r, _, hr, ⟨rfl, rfl⟩, rfl⟩ := hr
    exact .growth (addVertex_growth hg (List.mem_singleton_self v) hr)
  | connect v1 v2 =>
    simp only [Call.perform, returns_bind, returns_pure, Prod.mk.injEq] at hr
    obtain ⟨r, _, hr, ⟨rfl, rfl⟩, rfl⟩ := hr
    exact .growth (connect_growth hg hr)
  | connectByUuid u1 u2 =>
    simp only [Call.perform, returns_bind, returns_pure, Prod.mk.injEq] at hr
    obtain ⟨r, _, hr, ⟨rfl, rfl⟩, rfl⟩ := hr
    exact .growth (connectByUuid_growth hg hr)
  | connectAllByLabel l1 l2 =>
    simp only [Call.perform, returns_bind, returns_pure, Prod.mk.injEq] at hr
    obtain ⟨r, _, hr, ⟨rfl, rfl⟩, rfl⟩ := hr
    exact .growth (connectAllByLabel_growth hg hr)
  | addAndConnect v1 v2 =>
    simp only [Call.perform, returns_bind, returns_pure, Prod.mk.injEq] at hr
    obtain ⟨r, _, hr, ⟨rfl, rfl⟩, rfl⟩ := hr
    exact .growth (addAndConnect_growth hg ho.1 ho.2 hr)
  | removeVertex v =>
    simp only [Call.perform, returns_bind, returns_pure, Prod.mk.injEq] at hr
    obtain ⟨r, _, hr, ⟨rfl, rfl⟩, rfl⟩ := hr
    obtain ⟨hm, hg'⟩ := removeVertex_effect hg hr
    rw [hg']
    exact .removal hm
  | removeVertexByUuid id =>
    simp only [Call.perform, returns_bind, returns_pure, Prod.mk.injEq] at hr
    obtain ⟨r, _, hr, ⟨rfl, rfl⟩, rfl⟩ := hr
    obtain ⟨m₁, hr₁, hd, hown⟩ := removeVertexByUuid_returns hg.owned hg.uuids id
    obtain ⟨rfl, rfl⟩ := hr.unique hr₁
    have hm := hd.release (hg.nodup.filter _) hown (fun a ha => hg.sole a (List.mem_filter.mp ha).1) g
    exact Effect.removal hm
  | removeAllVertexWithLabel l =>
    simp only [Call.perform, returns_bind, returns_pure, Prod.mk.injEq] at hr
    obtain ⟨r, _, hr, ⟨rfl, rfl⟩, rfl⟩ := hr
    obtain ⟨m₁, hr₁, hm⟩ := removeAllVertexWithLabel_returns hg.owned hg.uuids hg.sole l
    obtain ⟨rfl, rfl⟩ := hr.unique hr₁
    exact .removal hm
  | reset =>
    simp only [Call.perform, returns_bind, returns_pure, Prod.mk.injEq] at hr
    obtain ⟨r, t, hr, ⟨rfl, rfl⟩, rfl⟩ := hr
    obtain ⟨hr₁, hm⟩ := reset_returns hg.nodup hg.sole
    obtain ⟨rfl, rfl⟩ := hr.unique hr₁
    have hall : g.graph.filter ((Call.reset : Call σ π).removes m) = g.graph :=
      List.filter_eq_self.mpr (fun _ _ => rfl)
    have hnone : g.graph.filter (fun a => !(Call.reset : Call σ π).removes m a) = [] :=
      List.filter_eq_nil_iff.mpr (fun _ _ => by simp [Call.removes])
    have heffect : Effect .reset g m { g with graph := g.graph.filter fun a => !Call.removes m .reset a }
        [] (m.release g.graph) := .removal (by rwa [hall])
    rw [hnone] at heffect
    exact heffect
  | clone =>
    simp only [Call.perform, returns_bind, returns_pure, Prod.mk.injEq] at hr
    obtain ⟨k, _, hr, ⟨rfl, rfl⟩, rfl⟩ := hr
    obtain ⟨hres, hc⟩ := clone_resolves hg.owned hg.uuids hg.known hr
    obtain ⟨k', m₁, hr₁, hk⟩ := clone_returns hg.owned hg.uuids hg.known hc hres
    obtain ⟨rfl, rfl⟩ := hr.unique hr₁
    exact .clone hk

end DAG

end DagScheduler.Graphs

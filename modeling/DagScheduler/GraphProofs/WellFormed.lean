import DagScheduler.GraphProofs.Views

/-! Well-formed graphs, one condition at a time. -/

namespace DagScheduler.Graphs.DAG

open Library.Digraphs

variable {σ π : Type}

structure Owned (g : DAG) (m : Memory σ π) : Prop where
  nodup : g.graph.Nodup
  live : ∀ a ∈ g.graph, m.Live a

/-- The graph is one of the owners of its vertices. -/
def Held (g : DAG) (m : Memory σ π) : Prop := ∀ a ∈ g.graph, 0 < m.vertices.owners a

def EdgesInside (g : DAG) (m : Memory σ π) : Prop :=
  ∀ a ∈ g.graph, ∀ e ∈ m.edges a, ∃ c ∈ g.graph, e.connection = some c

def Counted (g : DAG) (m : Memory σ π) : Prop :=
  ∀ a ∈ g.graph, m.count a = inDegree g.graph m.targets a

def DistinctUuids (g : DAG) (m : Memory σ π) : Prop :=
  ∀ a ∈ g.graph, ∀ b ∈ g.graph, m.uuid a = m.uuid b → a = b

def Has (g : DAG) (m : Memory σ π) (u : UUID) : Prop := ∃ a ∈ g.graph, m.uuid a = some u

def Simple (g : DAG) (m : Memory σ π) : Prop := ∀ a ∈ g.graph, (m.targets a).Nodup

def Connected (g : DAG) (m : Memory σ π) (a b : Addr) : Prop :=
  a ∈ g.graph ∧ b ∈ g.graph ∧ b ∈ m.targets a

def Acyclic (g : DAG) (m : Memory σ π) : Prop := Library.Digraphs.Acyclic (g.Connected m)

structure Clonable (g : DAG) (m : Memory σ π) : Prop extends Owned g m where
  inside : g.EdgesInside m
  uuids : g.DistinctUuids m
  config : g.jsonConfig.isSome

structure WellFormed (g : DAG) (m : Memory σ π) : Prop extends Clonable g m where
  counted : g.Counted m
  simple : g.Simple m

section Decide

variable (g : DAG) (m : Memory σ π)

instance : DecidablePred m.Live := fun a => inferInstanceAs (Decidable ((m.vertex a).isSome = true))

instance : Decidable (g.EdgesInside m) :=
  inferInstanceAs (Decidable (∀ a ∈ g.graph, ∀ e ∈ m.edges a, ∃ c ∈ g.graph, e.connection = some c))

instance : Decidable (g.Counted m) :=
  inferInstanceAs (Decidable (∀ a ∈ g.graph, m.count a = inDegree g.graph m.targets a))

instance : Decidable (g.DistinctUuids m) :=
  inferInstanceAs (Decidable (∀ a ∈ g.graph, ∀ b ∈ g.graph, m.uuid a = m.uuid b → a = b))

instance (u : UUID) : Decidable (g.Has m u) := inferInstanceAs (Decidable (∃ a ∈ g.graph, m.uuid a = some u))

instance : Decidable (g.Simple m) :=
  inferInstanceAs (Decidable (∀ a ∈ g.graph, (m.targets a).Nodup))

end Decide

variable {g : DAG} {m : Memory σ π}

lemma EdgesInside.closed (h : g.EdgesInside m) : Closed g.graph m.targets := by
  intro a ha c hc
  obtain ⟨e, he, hec, _⟩ := mem_targets.mp hc
  obtain ⟨d, hd, hed⟩ := h a ha e he
  obtain rfl : c = d := Option.some.inj (hec.symm.trans hed)
  exact hd

lemma Counted.inDegree_le (hg : g.Counted m) (hc : Closed g.graph m.targets) {rs : List Addr} (hn : rs.Nodup)
    (hrs : rs ⊆ g.graph) (c : Addr) : inDegree rs m.targets c ≤ m.count c := by
  by_cases hcg : c ∈ g.graph
  · rw [hg c hcg]
    exact inDegree_le_of_subset hn hrs m.targets c
  · have hzero : inDegree rs m.targets c = 0 :=
      inDegree_eq_zero.mpr fun r hr hcr => hcg (hc r (hrs hr) c hcr)
    omega

lemma connected_iff (hc : Closed g.graph m.targets) {a b : Addr} :
    g.Connected m a b ↔ Edge g.graph m.targets a b :=
  ⟨fun ⟨ha, _, hb⟩ => ⟨ha, hb⟩, fun ⟨ha, hb⟩ => ⟨ha, hc a ha b hb, hb⟩⟩

lemma connected_eq (hc : Closed g.graph m.targets) : g.Connected m = Edge g.graph m.targets :=
  funext fun _ => funext fun _ => propext (connected_iff hc)

lemma WellFormed.of_eq {g' : DAG} (h : g.WellFormed m) (hg : g'.graph = g.graph)
    (hc : g'.jsonConfig.isSome) : g'.WellFormed m := by
  obtain ⟨graph, title, config⟩ := g
  obtain ⟨graph', title', config'⟩ := g'
  obtain rfl : graph' = graph := hg
  exact ⟨⟨⟨h.nodup, h.live⟩, h.inside, h.uuids, hc⟩, h.counted, h.simple⟩

end DagScheduler.Graphs.DAG

/-! A graph of two vertices with tasks, the first pointing at the second. -/

namespace DagScheduler.Graphs.Sample

open Library

instance : TaskStage Unit := ⟨fun _ => "stage", id⟩
instance : TaskCallbackPlugin Unit := ⟨id⟩

def task (n : BitVec 128) (hn : n != 0) : Task Unit Unit where
  iterating := false
  kill := false
  stages := [()]
  label := "task"
  completeCallback := none
  completeCallbackPlugin := none
  uuid := ⟨n⟩
  jsonConfig := none
  jsonInitialInputs := none
  uuid_initialized := hn

def vertex (n : BitVec 128) (edges : List DAGEdge) (count : ℕ) (t : Task Unit Unit) :
    DAGVertex Unit Unit where
  uuid := ⟨n⟩
  currentStatus := .initialized
  label := "vertex"
  edges := edges
  incommingEdgeCount := count
  task := some t

def task₁ : Task Unit Unit := task 3 rfl

def task₂ : Task Unit Unit := task 4 rfl

def memory : Memory Unit Unit where
  vertices := (SharedHeap.empty.makeShared
    (vertex 1 [⟨⟨5⟩, .initialized, some 1⟩] 0 task₁)).makeShared (vertex 2 [] 1 task₂)
  entropy n := ⟨BitVec.ofNat 128 (n + 6)⟩
  wrapped := false

def dag : DAG := ⟨[0, 1], "sample", some .null⟩

lemma wellFormed : dag.WellFormed memory where
  nodup := by decide
  live := by decide
  inside := by decide
  counted := by decide
  uuids := by decide
  simple := by decide
  config := rfl

lemma acyclic : dag.Acyclic memory := by
  refine Library.Digraphs.acyclic_of_rank id ?_
  have hrank : ∀ a ∈ dag.graph, ∀ b ∈ memory.targets a, a < b := by decide
  exact fun u v huv => hrank u huv.1 v huv.2.2

end DagScheduler.Graphs.Sample

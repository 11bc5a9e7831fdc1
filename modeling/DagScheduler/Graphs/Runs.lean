import DagScheduler.Graphs.Connections

/-! Runs of the public operations. A client starts with one empty graph and keeps every clone. -/

namespace DagScheduler.Graphs

open Library Library.Programs

variable {σ π : Type}

structure World (σ π : Type) where
  dags : List DAG
  memory : Memory σ π

inductive Call (σ π : Type) where
  | addVertex (v : DAGVertex σ π)
  | connect (v1 v2 : DAGVertex σ π)
  | connectByUuid (u1 u2 : UUID)
  | connectAllByLabel (l1 l2 : String)
  | addAndConnect (v1 v2 : DAGVertex σ π)
  | removeVertex (v : VertexRef σ π)
  | removeVertexByUuid (id : UUID)
  | removeAllVertexWithLabel (label : String)
  | reset
  | clone

structure DAGVertex.Disconnected (v : DAGVertex σ π) : Prop where
  edges : v.edges = []
  incommingEdgeCount : v.incommingEdgeCount = 0

def DAGVertex.Known (m : Memory σ π) (v : DAGVertex σ π) : Prop :=
  ∀ e ∈ v.edges, ∀ c, e.connection = some c → c < m.vertices.next

/-- The owning pointer through which a client reaches a vertex of `g`, as `find_vertex(..).lock()` gives it. -/
def VertexRef.held (g : DAG) : VertexRef σ π → List Addr
  | .value _ => []
  | .object a => if a ∈ g.graph then [a] else []

/-- `remove_vertex` where the client keeps the vertex it passes alive until the call is over. -/
def DAG.removeVertexHeld (g : DAG) (v : VertexRef σ π) : Prog σ π (Bool × DAG) := do
  modify fun m => m.retain (v.held g)
  let r ← g.removeVertex v
  modify fun m => m.release (v.held g)
  pure r

namespace Call

/-- What a client may pass: `add_vertex` gets vertices without edges, `add_and_connect` any whose
edges observe vertices that exist, or existed. -/
def Offered (m : Memory σ π) : Call σ π → Prop
  | addVertex v => v.Disconnected
  | addAndConnect v1 v2 => v1.Known m ∧ v2.Known m
  | _ => True

def Disconnected : Call σ π → Prop
  | addVertex v => v.Disconnected
  | addAndConnect v1 v2 => v1.Disconnected ∧ v2.Disconnected
  | _ => True

variable [TaskStage σ] [TaskCallbackPlugin π]

/-- The graph after the call, and the graphs it made; an exception is a way to return. -/
def perform (g : DAG) : Call σ π → Prog σ π (DAG × List DAG)
  | addVertex v => do
    let (_, g, _) ← g.addVertex v
    pure (g, [])
  | connect v1 v2 => do
    let _ ← g.connect v1 v2
    pure (g, [])
  | connectByUuid u1 u2 => do
    let _ ← g.connectByUuid u1 u2
    pure (g, [])
  | connectAllByLabel l1 l2 => do
    let _ ← g.connectAllByLabel l1 l2
    pure (g, [])
  | addAndConnect v1 v2 => do
    let (_, g) ← g.addAndConnect v1 v2
    pure (g, [])
  | removeVertex v => do
    let (_, g) ← g.removeVertexHeld v
    pure (g, [])
  | removeVertexByUuid id => do
    let (_, g) ← g.removeVertexByUuid id
    pure (g, [])
  | removeAllVertexWithLabel label => do
    let (_, g) ← g.removeAllVertexWithLabel label
    pure (g, [])
  | reset => do
    pure (← g.reset, [])
  | clone => do
    pure (g, [← g.clone])

end Call

variable [TaskStage σ] [TaskCallbackPlugin π]

def World.step (w : World σ π) (i : ℕ) (c : Call σ π) : Option (World σ π) :=
  match w.dags[i]? with
  | none => none
  | some g =>
    match (c.perform g).run w.memory with
    | .ok ((g', made), m) => some ⟨w.dags.set i g' ++ made, m⟩
    | .error _ => none

def World.start (title : String) (config : Document) (m : Memory σ π) : World σ π :=
  ⟨[⟨[], title, some config⟩], { m with wrapped := false }⟩

structure Event (σ π : Type) where
  world : World σ π
  index : ℕ
  call : Call σ π

inductive Run (w₀ : World σ π) : List (Event σ π) → World σ π → Prop
  | start : Run w₀ [] w₀
  | step {h : List (Event σ π)} {w w' : World σ π} {i : ℕ} {c : Call σ π} (run : Run w₀ h w)
      (offered : c.Offered w.memory) (hs : w.step i c = some w') : Run w₀ (h ++ [⟨w, i, c⟩]) w'

end DagScheduler.Graphs

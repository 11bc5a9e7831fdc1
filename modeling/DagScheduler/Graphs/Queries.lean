import DagScheduler.Graphs.Blueprint
import DagScheduler.Library.Peeling

/-! What a client can ask a graph, and what the plan of the graph answers, also when it is processed. -/

namespace DagScheduler.Graphs

open Library Library.Programs Library.Plans

variable {σ π : Type}

namespace DAG

def containsVertexByUuid (this : DAG) (u : UUID) : Prog σ π Bool := do
  pure (← this.findVertexByUuid u).isSome

def containsVertexByLabel (this : DAG) (l : String) : Prog σ π Bool := do
  pure !(← this.findAllVerticiesWithLabel l).isEmpty

def vertexCount (this : DAG) : ℕ := this.graph.length

end DAG

inductive Query (σ π : Type) where
  | containsVertex (v : DAGVertex σ π)
  | containsVertexByUuid (u : UUID)
  | containsVertexByLabel (l : String)
  | vertexCount
  | edgeCount
  | areConnected (v1 v2 : DAGVertex σ π)
  | areConnectedByUuid (u1 u2 : UUID)
  | allAreConnectedByLabel (l1 l2 : String)
  | connectionWouldMakeCyclic (v1 v2 : DAGVertex σ π)
  | connectionWouldMakeCyclicByUuid (u1 u2 : UUID)
  | connectionWouldMakeCyclicByLabel (l1 l2 : String)

inductive Finding where
  | flag (b : Bool)
  | count (n : ℕ)

variable [TaskStage σ] [TaskCallbackPlugin π]

def Query.ask (g : DAG) : Query σ π → Prog σ π Finding
  | containsVertex v => do pure (.flag (← g.containsVertex v))
  | containsVertexByUuid u => do pure (.flag (← g.containsVertexByUuid u))
  | containsVertexByLabel l => do pure (.flag (← g.containsVertexByLabel l))
  | vertexCount => pure (.count g.vertexCount)
  | edgeCount => do pure (.count (← g.edgeCount))
  | areConnected v1 v2 => do pure (.flag (← g.areConnected v1 v2))
  | areConnectedByUuid u1 u2 => do pure (.flag (← g.areConnectedByUuid u1 u2))
  | allAreConnectedByLabel l1 l2 => do pure (.flag (← g.allAreConnectedByLabel l1 l2))
  | connectionWouldMakeCyclic v1 v2 => do pure (.flag (← g.connectionWouldMakeCyclic v1 v2))
  | connectionWouldMakeCyclicByUuid u1 u2 => do pure (.flag (← g.connectionWouldMakeCyclicByUuid u1 u2))
  | connectionWouldMakeCyclicByLabel l1 l2 => do pure (.flag (← g.connectionWouldMakeCyclicByLabel l1 l2))

/-! The same of a plan; `none` where the call ends with a fault. -/

namespace Blueprint

def pointsAt (p : Blueprint σ π) (u w : UUID) : Option Bool :=
  if Plan.has p u && Plan.has p w && !Plan.dangles p u then some (Plan.leads p u w) else none

def allPointAt (p : Blueprint σ π) (us ws : List UUID) : Option Bool :=
  ((us.product ws).mapM fun q => pointsAt p q.1 q.2).map fun bs => !us.isEmpty && !ws.isEmpty && bs.all id

/-- What is left of the identifier of a vertex that is offered: one that goes into the graph leaves the
null identifier behind. -/
def leaves (p : Blueprint σ π) (u : UUID) : UUID := if Plan.has p u then u else .null

open Classical in
/-- The search is made on a copy that has both vertices, with what is left of their identifiers. -/
noncomputable def closes (p : Blueprint σ π) (v1 v2 : DAGVertex σ π) : Option Bool :=
  if Plan.stale p then none
  else
    let p₁ := Plan.add p v1.node
    let p₂ := Plan.add p₁ v2.node
    let u := leaves p v1.uuid
    let w := leaves p₁ v2.uuid
    if Plan.has p₂ u && Plan.has p₂ w then some (decide (Plan.Reaches p₂ w u)) else none

open Classical in
/-- Where nothing has one of the labels, no search is made. -/
noncomputable def noneCloses (p : Blueprint σ π) (pairs : List (UUID × UUID)) : Option Bool :=
  if pairs.isEmpty then some true
  else if Plan.stale p then none
  else some (pairs.all fun q => !decide (Plan.Reaches p q.2 q.1))

open Classical in
noncomputable def ask (p : Blueprint σ π) : Query σ π → Option Finding
  | .containsVertex v => some (.flag (Plan.has p v.uuid))
  | .containsVertexByUuid u => some (.flag (Plan.has p u))
  | .containsVertexByLabel l => some (.flag !(labelled p l).isEmpty)
  | .vertexCount => some (.count p.length)
  | .edgeCount => some (.count (p.map fun n => n.out.length).sum)
  | .areConnected v1 v2 => (pointsAt p v1.uuid v2.uuid).map .flag
  | .areConnectedByUuid u1 u2 => (pointsAt p u1 u2).map .flag
  | .allAreConnectedByLabel l1 l2 => (allPointAt p (labelled p l1) (labelled p l2)).map .flag
  | .connectionWouldMakeCyclic v1 v2 => (closes p v1 v2).map .flag
  | .connectionWouldMakeCyclicByUuid u1 u2 =>
    if Plan.has p u1 && Plan.has p u2 && !Plan.stale p then some (.flag (decide (Plan.Reaches p u2 u1))) else none
  | .connectionWouldMakeCyclicByLabel l1 l2 =>
    (noneCloses p ((labelled p l1).product (labelled p l2))).map .flag

/-- A vertex that was copied from the node's. -/
def vertex (n : Node UUID (Card σ π)) : DAGVertex σ π where
  uuid := n.name
  currentStatus := n.data.currentStatus
  label := n.data.label
  edges := []
  incommingEdgeCount := 0
  task := n.data.task.map Task.clone

/-- The result, the batches and the queue after `process_dag`. A task is copied with its graph, then with
its vertex, and once more for the batches. -/
def process (p : Blueprint σ π) (queue : TaskQueue σ π) :
    Option (Bool × Batches σ π × TaskQueue σ π) :=
  if Plan.stale p then none
  else
    let batches := (Plan.peel p.length p).map fun b => (clone b).map vertex
    some (true, batches.map (List.map DAGVertex.clone), queue ++ batches.flatten.map DAGVertex.task)

end Blueprint

end DagScheduler.Graphs

import DagScheduler.Graphs.Algorithms

/-! Connecting vertices of a graph. Each connection is first tried on a copy of the graph, which
is then sorted to see whether it has a cycle. -/

namespace DagScheduler.Graphs.DAG

open Library Library.Programs

variable {σ π : Type} [TaskStage σ] [TaskCallbackPlugin π]

def connectionWouldMakeCyclic (this : DAG) (v1 v2 : DAGVertex σ π) : Prog σ π Bool := do
  let graphClone ← this.clone
  let (_, graphClone, v1Clone) ← graphClone.addVertex v1.clone
  let (_, graphClone, v2Clone) ← graphClone.addVertex v2.clone
  let v1Found ← graphClone.findVertex v1Clone
  let v2Found ← graphClone.findVertex v2Clone
  match v1Found, v2Found with
  | some a, some b => do
    let _ ← DAGVertex.connect a b
    let (ret, _) ← dagTopologicalSort graphClone
    graphClone.destroy
    pure ret
  | _, _ => throw .nullDereference

def connectionWouldMakeCyclicByUuid (this : DAG) (u1 u2 : UUID) : Prog σ π Bool := do
  let v1Tmp ← this.findVertexByUuid u1
  let v2Tmp ← this.findVertexByUuid u2
  this.connectionWouldMakeCyclic (← derefLocked v1Tmp) (← derefLocked v2Tmp)

/-- The two nested loops; both are left at the first check whose negation is false. -/
def noneWouldMakeCyclic (this : DAG) : List (Addr × Addr) → Prog σ π Bool
  | [] => pure true
  | (v, u) :: pairs => do
    let ret := !(← this.connectionWouldMakeCyclic (← deref v) (← deref u))
    if ret then this.noneWouldMakeCyclic pairs else pure false

def connectionWouldMakeCyclicByLabel (this : DAG) (l1 l2 : String) : Prog σ π Bool := do
  let v1 ← this.findAllVerticiesWithLabel l1
  let v2 ← this.findAllVerticiesWithLabel l2
  this.noneWouldMakeCyclic (v1.product v2)

/-- `.error` where the call throws. -/
abbrev Reply (σ π : Type) := Except (DAGException σ π) Bool

def connect (this : DAG) (v1 v2 : DAGVertex σ π) : Prog σ π (Reply σ π) := do
  let v1Tmp ← this.findVertex v1
  let v2Tmp ← this.findVertex v2
  match v1Tmp, v2Tmp with
  | some a, some b =>
    if a ∈ this.graph ∧ b ∈ this.graph then
      if ← this.connectionWouldMakeCyclic (← deref a) (← deref b) then
        pure (.error ⟨← deref a, ← deref b⟩)
      else
        let _ ← DAGVertex.connect a b
        pure (.ok true)
    else pure (.ok false)
  | _, _ => pure (.ok false)

def connectByUuid (this : DAG) (u1 u2 : UUID) : Prog σ π (Reply σ π) := do
  let v1Tmp ← this.findVertexByUuid u1
  let v2Tmp ← this.findVertexByUuid u2
  this.connect (← derefLocked v1Tmp) (← derefLocked v2Tmp)

/-- The two nested loops, over the pairs in the order they are visited. -/
def connectPairs (this : DAG) (ret : Bool) : List (Addr × Addr) → Prog σ π (Reply σ π)
  | [] => pure (.ok ret)
  | (v, u) :: pairs => do
    match ← this.connect (← deref v) (← deref u) with
    | .error e => pure (.error e)
    | .ok b => this.connectPairs (ret && b) pairs

def connectAllByLabel (this : DAG) (l1 l2 : String) : Prog σ π (Reply σ π) := do
  let v1 ← this.findAllVerticiesWithLabel l1
  let v2 ← this.findAllVerticiesWithLabel l2
  this.connectPairs true (v1.product v2)

/-- Also returns the graph: its vertices stay even if the connection throws. -/
def addAndConnect (this : DAG) (v1 v2 : DAGVertex σ π) : Prog σ π (Reply σ π × DAG) := do
  let v1Clone := v1.clone
  let v2Clone := v2.clone
  let (_, g, _) ← this.addVertex v1
  let (_, g, _) ← g.addVertex v2
  let v1Ptr ← g.findVertex v1Clone
  let v2Ptr ← g.findVertex v2Clone
  let ret ← g.connect (← derefLocked v1Ptr) (← derefLocked v2Ptr)
  pure (ret, g)

omit [TaskStage σ] [TaskCallbackPlugin π]

def anyEdgeTo (v2 : Addr) (ret : Bool) : List DAGEdge → Prog σ π Bool
  | [] => pure ret
  | e :: es => do
    let c ← lock e.connection
    match c with
    | none => throw .nullDereference
    | some c => anyEdgeTo v2 (ret || c == v2) es

/-- It compares the addresses of the vertices. -/
def areConnected (this : DAG) (v1 v2 : DAGVertex σ π) : Prog σ π Bool := do
  let v1Tmp ← this.findVertex v1
  let v2Tmp ← this.findVertex v2
  match v1Tmp, v2Tmp with
  | some a, some b => do anyEdgeTo b false (← deref a).edges
  | _, _ => throw .nullDereference

def areConnectedByUuid (this : DAG) (u1 u2 : UUID) : Prog σ π Bool := do
  let v1Tmp ← this.findVertexByUuid u1
  let v2Tmp ← this.findVertexByUuid u2
  this.areConnected (← derefLocked v1Tmp) (← derefLocked v2Tmp)

def allPairsConnected (this : DAG) (ret : Bool) : List (Addr × Addr) → Prog σ π Bool
  | [] => pure ret
  | (vfrom, vto) :: pairs => do
    let b ← this.areConnected (← deref vfrom) (← deref vto)
    this.allPairsConnected (ret && b) pairs

def allAreConnectedByLabel (this : DAG) (l1 l2 : String) : Prog σ π Bool := do
  let v1 ← this.findAllVerticiesWithLabel l1
  let v2 ← this.findAllVerticiesWithLabel l2
  this.allPairsConnected (!v1.isEmpty && !v2.isEmpty) (v1.product v2)

end DagScheduler.Graphs.DAG

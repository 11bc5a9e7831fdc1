import DagScheduler.Graphs.Dag

/-! `operator==` on graphs. The JSON library compares the configurations. -/

namespace DagScheduler.Graphs

open Library Library.Programs

variable {σ π : Type}

def useCount (a : Addr) : Prog σ π ℕ := do pure ((← get).vertices.owners a)

namespace DAG

def sortByLabel (this : DAG) : Prog σ π DAG := do
  let m ← get
  let label a := ((m.vertex a).map DAGVertex.label).getD ""
  pure { this with graph := this.graph.insertionSort fun a b => label a ≤ label b }

/-- The loop over `lhs.graph_`; `rhs.graph_` is read at the same index. Both pointers are copied
before their use counts are read. -/
def compareEach (ret : Bool) : List Addr → List Addr → Prog σ π Bool
  | [], _ => pure ret
  | _ :: _, [] => throw .outOfRange
  | v :: vs, o :: os => do
    modify fun m => m.retain [v]
    let equal := (← deref v).eq (← deref o)
    modify fun m => m.retain [o]
    let counts := (← useCount v) == (← useCount o)
    modify fun m => m.release [o]
    modify fun m => m.release [v]
    if ret && equal && counts then compareEach true vs os else pure false

variable [TaskStage σ] [TaskCallbackPlugin π]

def eq (same : Document → Document → Bool) (lhs rhs : DAG) : Prog σ π Bool := do
  let ret := lhs.graph.length == rhs.graph.length
  let lhsClone ← lhs.clone
  let rhsClone ← rhs.clone
  -- Only the clones are sorted; the loop below reads the graphs themselves.
  let lhsClone ← lhsClone.sortByLabel
  let rhsClone ← rhsClone.sortByLabel
  let ret ← compareEach ret lhs.graph rhs.graph
  let ret := ret && lhs.graph.length == rhs.graph.length
  let lhsEdges ← lhs.edgeCount
  let rhsEdges ← rhs.edgeCount
  let ret := ret && lhsEdges == rhsEdges
  match lhs.jsonConfig, rhs.jsonConfig with
  | some c, some d =>
    rhsClone.destroy
    lhsClone.destroy
    pure (ret && same c d)
  | _, _ => throw .nullDereference

end DAG

end DagScheduler.Graphs

import DagScheduler.Graphs.Dag

/-! Topological sorting and the batches of a graph. -/

namespace DagScheduler.Graphs

open Library Library.Programs

variable {σ π : Type}

def withoutIncommingEdges : List Addr → Prog σ π (List Addr)
  | [] => pure []
  | a :: as => do
    let v ← deref a
    let output ← withoutIncommingEdges as
    if v.hasIncommingEdges then pure output else pure (a :: output)

def dagVerticesWithNoIncommingEdges (g : DAG) : Prog σ π (List Addr) :=
  withoutIncommingEdges g.graph

/-- The visit of one edge of `curr`: the edge is cut, and its target queued once nothing points
at it any more. -/
def visitEdge (curr : Addr) (Q : List Addr) (i : ℕ) : Prog σ π (List Addr) := do
  match (← deref curr).edges[i]? with
  | none => throw .outOfRange
  | some e => do
    let m ← lock e.connection
    let (_, e) ← e.connectTo none
    modifyVertex curr fun v => { v with edges := v.edges.set i e }
    match m with
    | none => throw .assertion
    | some m => if (← deref m).hasIncommingEdges then pure Q else pure (Q ++ [m])

/-- The loop of the sort, with the vertices still queued and those already sorted. -/
def sortLoop : ℕ → List Addr → List Addr → Prog σ π (List Addr)
  | _, [], L => pure L
  | 0, _ :: _, _ => throw .unfinished
  | fuel + 1, curr :: Q, L => do
    let v ← deref curr
    let Q ← (List.range v.edges.length).foldlM (visitEdge curr) Q
    sortLoop fuel Q (L ++ [curr])

variable [TaskStage σ] [TaskCallbackPlugin π]

def dagTopologicalSort (g : DAG) : Prog σ π (Bool × List (DAGVertex σ π)) := do
  let Q ← dagVerticesWithNoIncommingEdges g
  -- A vertex is queued at most once, so one round for each vertex is enough.
  let L ← sortLoop g.graph.length Q []
  let sortedVertices ← L.mapM fun v => do pure (← deref v).clone
  pure (L.length != g.graph.length, sortedVertices)

/-- The visit of one vertex of a batch. With `NDEBUG` the argument of `assert`, and with it the
removal, is discarded. -/
def takeVertex (ndebug : Bool) (s : DAG × List (DAGVertex σ π)) (v : Addr) :
    Prog σ π (DAG × List (DAGVertex σ π)) := do
  let vClone := (← deref v).clone
  if ndebug then pure (s.1, s.2 ++ [vClone])
  else
    let (removed, g) ← s.1.removeVertex (VertexRef.object v)
    cppAssert removed
    pure (g, s.2 ++ [vClone])

abbrev Batches (σ π : Type) := List (List (DAGVertex σ π))
abbrev TaskQueue (σ π : Type) := List (Option (Task σ π))

def processLoop (ndebug : Bool) : ℕ → DAG → List Addr → Batches σ π → TaskQueue σ π →
    Prog σ π (DAG × Batches σ π × TaskQueue σ π)
  | _, gClone, [], out, queue => pure (gClone, out, queue)
  | 0, _, _ :: _, _, _ => throw .unfinished
  | fuel + 1, gClone, v :: vs, out, queue => do
    modify fun m => m.retain (v :: vs)
    let (gClone, verticesToProcess) ← (v :: vs).foldlM (takeVertex ndebug) (gClone, [])
    let out := out ++ [verticesToProcess.map DAGVertex.clone]
    let queue := queue ++ verticesToProcess.map DAGVertex.task
    modify fun m => m.release (v :: vs)
    let curr ← dagVerticesWithNoIncommingEdges gClone
    processLoop ndebug fuel gClone curr out queue

/-- The result, the batches and the queue of the scheduler, which `queue_task` appends to. -/
def processDag (ndebug : Bool) (fuel : ℕ) (g : DAG) (out : Batches σ π) (queue : TaskQueue σ π) :
    Prog σ π (Bool × Batches σ π × TaskQueue σ π) := do
  let gClone ← g.clone
  let gCheck ← g.clone
  let (cyclic, check) ← dagTopologicalSort gCheck
  if !cyclic && check.length == gClone.graph.length then
    let curr ← dagVerticesWithNoIncommingEdges gClone
    let (gClone, out, queue) ← processLoop ndebug fuel gClone curr [] queue
    gClone.destroy
    gCheck.destroy
    pure (true, out, queue)
  else
    gClone.destroy
    gCheck.destroy
    pure (!cyclic, out, queue)

end DagScheduler.Graphs

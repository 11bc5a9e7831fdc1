import DagScheduler.Graphs.Vertex
import DagScheduler.Library.Transitions

/-! Vertices outside a graph: what connects them, moves them, copies them and ends them. -/

namespace DagScheduler.Graphs

open Library Library.Programs

variable {σ π : Type}

def Memory.erase (m : Memory σ π) (a : Addr) : Memory σ π :=
  { m with vertices := m.vertices.mapCell a fun _ => none }

namespace DAGVertex

def new (label : String) (task : Option (Task σ π)) : Prog σ π Addr := do
  makeShared ⟨← uuidGenerate, .initialized, label, [], 0, task⟩

/-- The move constructor. The identifier it starts with is generated, and then overwritten. -/
def moveConstruct (other : Addr) : Prog σ π Addr := do
  let _ ← uuidGenerate
  let v ← deref other
  modifyVertex other fun _ => moved
  makeShared v

/-- The move assignment. Moved to itself, a vertex keeps its task and loses the rest. -/
def moveAssign (this rhs : Addr) : Prog σ π Unit := do
  let _ ← deref this
  let v ← deref rhs
  modifyVertex this fun _ => v
  modifyVertex rhs fun w => { (moved : DAGVertex σ π) with task := if this = rhs then w.task else none }

/-- The destructor. Its edges end with it, and tell nobody. -/
def destruct (this : Addr) : Prog σ π Unit := do
  let _ ← deref this
  modify fun m => m.erase this

end DAGVertex

inductive VertexCall (σ π : Type) where
  | construct (label : String) (task : Option (Task σ π))
  | connect (this other : Addr)
  | moveConstruct (other : Addr)
  | moveAssign (this rhs : Addr)
  | clone (this : Addr)
  | destruct (this : Addr)

namespace VertexCall

variable [TaskStage σ] [TaskCallbackPlugin π]

def perform : VertexCall σ π → Prog σ π Unit
  | construct label task => do
    let _ ← DAGVertex.new label task
  | connect this other => do
    let _ ← DAGVertex.connect this other
  | moveConstruct other => do
    let _ ← DAGVertex.moveConstruct other
  | moveAssign this rhs => DAGVertex.moveAssign this rhs
  | clone this => do
    let _ ← makeShared (← deref this).clone
  | destruct this => DAGVertex.destruct this

def step (m : Memory σ π) (c : VertexCall σ π) : Option (Memory σ π) :=
  match c.perform.run m with
  | .ok (_, m') => some m'
  | .error _ => none

def system (m : Memory σ π) : Transitions.System (Memory σ π) (VertexCall σ π) := ⟨m, step⟩

end VertexCall

end DagScheduler.Graphs

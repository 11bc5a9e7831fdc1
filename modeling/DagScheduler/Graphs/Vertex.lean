import DagScheduler.Graphs.Task
import DagScheduler.Library.Programs
import DagScheduler.Library.SharedHeap

/-! Vertices and edges. A vertex owns its edges; an edge only observes the vertex it points at, so
its connection may outlive that vertex. -/

namespace DagScheduler.Graphs

open Library Library.Programs

abbrev Addr := ℕ

inductive EdgeStatus where
  | initialized | traversed | nonTraverable
  deriving DecidableEq

inductive VertexStatus where
  | initialized | scheduled | running | passed | failed | invalid
  deriving DecidableEq

structure DAGEdge where
  uuid : UUID
  currentStatus : EdgeStatus
  connection : Option Addr

structure DAGVertex (σ π : Type) where
  uuid : UUID
  currentStatus : VertexStatus
  label : String
  edges : List DAGEdge
  incommingEdgeCount : ℕ
  task : Option (Task σ π)

/-- The vertices that are alive and what the next calls of `uuid_generate` yield. `wrapped` only
observes: it records whether some counter was ever decremented at zero. -/
structure Memory (σ π : Type) where
  vertices : SharedHeap (DAGVertex σ π)
  entropy : ℕ → UUID
  wrapped : Bool

/-- How a call can end other than by returning; an exception of the graph is a return value. -/
inductive Fault where
  | nullDereference
  | outOfRange
  | assertion
  | unfinished
  deriving DecidableEq

abbrev Prog (σ π α : Type) := Program (Memory σ π) Fault α

variable {σ π : Type}

def Memory.vertex (m : Memory σ π) (a : Addr) : Option (DAGVertex σ π) := m.vertices.value a

def Memory.modifyVertex (m : Memory σ π) (a : Addr) (f : DAGVertex σ π → DAGVertex σ π) :
    Memory σ π :=
  { m with vertices := m.vertices.modify a f }

def Memory.retain (m : Memory σ π) (as : List Addr) : Memory σ π :=
  { m with vertices := m.vertices.retainAll as }

def Memory.release (m : Memory σ π) (as : List Addr) : Memory σ π :=
  { m with vertices := m.vertices.releaseAll as }

def deref (a : Addr) : Prog σ π (DAGVertex σ π) := do
  match (← get).vertex a with
  | some v => pure v
  | none => throw .nullDereference

def lock (w : Option Addr) : Prog σ π (Option Addr) := do
  let m ← get
  pure (w.filter fun a => (m.vertex a).isSome)

def derefLocked : Option Addr → Prog σ π (DAGVertex σ π)
  | some a => deref a
  | none => throw .nullDereference

def cppAssert (b : Bool) : Prog σ π Unit :=
  if b then pure () else throw .assertion

def modifyVertex (a : Addr) (f : DAGVertex σ π → DAGVertex σ π) : Prog σ π Unit :=
  modify fun m => m.modifyVertex a f

def makeShared (v : DAGVertex σ π) : Prog σ π Addr := do
  let m ← get
  set { m with vertices := m.vertices.makeShared v }
  pure m.vertices.next

def uuidGenerate : Prog σ π UUID := do
  let m ← get
  set { m with entropy := fun n => m.entropy (n + 1) }
  pure (m.entropy 0)

/-- `--count` on a `std::size_t`. -/
def decrement (n : ℕ) : ℕ := if n = 0 then 2 ^ 64 - 1 else n - 1

def DAGVertex.decremented (v : DAGVertex σ π) : DAGVertex σ π :=
  { v with incommingEdgeCount := decrement v.incommingEdgeCount }

-- Each incoming edge is an object of its own, so incrementing cannot overflow.
def DAGVertex.incremented (v : DAGVertex σ π) : DAGVertex σ π :=
  { v with incommingEdgeCount := v.incommingEdgeCount + 1 }

def Memory.sub (m : Memory σ π) (a : Addr) (count : ℕ) : Memory σ π :=
  { m.modifyVertex a DAGVertex.decremented with wrapped := m.wrapped || count == 0 }

def Memory.add (m : Memory σ π) (a : Addr) : Memory σ π := m.modifyVertex a DAGVertex.incremented

def subIncommingEdge (a : Addr) : Prog σ π Unit := do
  let v ← deref a
  modify fun m => m.sub a v.incommingEdgeCount

def addIncommingEdge (a : Addr) : Prog σ π Unit := do
  let _ ← deref a
  modify fun m => m.add a

namespace DAGEdge

def clone (e : DAGEdge) : DAGEdge where
  uuid := e.uuid
  currentStatus := e.currentStatus
  connection := none

def new : Prog σ π DAGEdge := do
  pure ⟨← uuidGenerate, .initialized, none⟩

def connectTo (e : DAGEdge) (v : Option Addr) : Prog σ π (Bool × DAGEdge) := do
  let ret ← match ← lock e.connection with
    | some c => do
      subIncommingEdge c
      pure false
    | none => pure true
  match ← lock v with
  | some c => addIncommingEdge c
  | none => pure ()
  pure (ret, { e with connection := v })

end DAGEdge

namespace DAGVertex

/-- The copy constructor: everything but the edges and the count. -/
def clone [TaskStage σ] [TaskCallbackPlugin π] (v : DAGVertex σ π) : DAGVertex σ π where
  uuid := v.uuid
  currentStatus := v.currentStatus
  label := v.label
  edges := []
  incommingEdgeCount := 0
  task := v.task.map Task.clone

def moved : DAGVertex σ π where
  uuid := .null
  currentStatus := .invalid
  label := ""
  edges := []
  incommingEdgeCount := 0
  task := none

def edgeCount (v : DAGVertex σ π) : ℕ := v.edges.length

def hasIncommingEdges (v : DAGVertex σ π) : Bool := v.incommingEdgeCount > 0

/-- `operator==` on vertices; it compares the counts, not the edges. -/
def eq (lhs rhs : DAGVertex σ π) : Bool :=
  if lhs.currentStatus = rhs.currentStatus then
    lhs.uuid.asString == rhs.uuid.asString && lhs.label == rhs.label &&
      lhs.edgeCount == rhs.edgeCount && lhs.incommingEdgeCount == rhs.incommingEdgeCount
  else if lhs.currentStatus = .invalid ∧ rhs.currentStatus = .invalid then true
  else false

def clearEdges (this : Addr) : Prog σ π Unit :=
  modifyVertex this fun v => { v with edges := [] }

def isAConnectionTo (e : DAGEdge) (v : DAGVertex σ π) : Prog σ π Bool := do
  match ← lock e.connection with
  | none => pure false
  | some c => pure (v.eq (← deref c))

def anyConnectionTo (other : DAGVertex σ π) : List DAGEdge → Prog σ π Bool
  | [] => pure false
  | e :: es => do
    if ← isAConnectionTo e other then pure true else anyConnectionTo other es

def containsConnectionTo (this : Addr) (other : DAGVertex σ π) : Prog σ π Bool := do
  anyConnectionTo other (← deref this).edges

def connect (this other : Addr) : Prog σ π Bool := do
  if ← containsConnectionTo this (← deref other) then pure false
  else
    let (_, e) ← (← DAGEdge.new).connectTo (some other)
    modifyVertex this fun v => { v with edges := v.edges ++ [e] }
    cppAssert (!(← deref this).edges.isEmpty)
    cppAssert (← isAConnectionTo e (← deref other))
    pure true

structure Connection (σ π : Type) where
  edge : DAGEdge
  vertex : DAGVertex σ π

variable [TaskStage σ] [TaskCallbackPlugin π]

-- The edge and its target are cloned once here and once by the constructor of the connection.
def cloneConnection (e : DAGEdge) : Prog σ π (Connection σ π) := do
  let v ← derefLocked (← lock e.connection)
  let vertex := { v.clone.clone with incommingEdgeCount := 0 }
  cppAssert (vertex.incommingEdgeCount == 0)
  pure ⟨e.clone.clone, vertex⟩

def cloneAllConnections (this : Addr) : Prog σ π (List (Connection σ π)) := do
  (← deref this).edges.mapM cloneConnection

/-- The body of the loop of `restablish_connections`. The vertex and the edge are copied twice more,
and the vertex belongs to the caller. -/
def restablishConnection (this : Addr) (connection : Connection σ π) : Prog σ π Addr := do
  let other ← makeShared connection.vertex.clone.clone
  let (_, tmpEdge) ← connection.edge.clone.clone.connectTo (some other)
  modifyVertex this fun v => { v with edges := v.edges ++ [tmpEdge] }
  pure other

def restablishConnections (this : Addr) (connections : List (Connection σ π)) : Prog σ π (List Addr) :=
  connections.mapM (restablishConnection this)

end DAGVertex

end DagScheduler.Graphs

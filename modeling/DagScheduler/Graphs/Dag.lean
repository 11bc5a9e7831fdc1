import DagScheduler.Graphs.Vertex

/-! The graph. `graph` lists the vertices it owns in the order they were added. -/

namespace DagScheduler.Graphs

open Library Library.Programs

structure DAG where
  graph : List Addr
  title : String
  jsonConfig : Option Document

/-- What `DAGException` prints: the two vertices whose connection would close a cycle. -/
structure DAGException (σ π : Type) where
  v1 : DAGVertex σ π
  v2 : DAGVertex σ π

/-- A `const DAGVertex &`: a vertex of its own, or one that lives in a graph. -/
inductive VertexRef (σ π : Type) where
  | value (v : DAGVertex σ π)
  | object (a : Addr)

variable {σ π : Type}

def VertexRef.read : VertexRef σ π → Prog σ π (DAGVertex σ π)
  | .value v => pure v
  | .object a => deref a

namespace DAG

def findIn (u : UUID) : List Addr → Prog σ π (Option Addr)
  | [] => pure none
  | a :: as => do
    if u.eq (← deref a).uuid then pure (some a) else findIn u as

def findVertexByUuid (this : DAG) (u : UUID) : Prog σ π (Option Addr) := findIn u this.graph

def findVertex (this : DAG) (v : DAGVertex σ π) : Prog σ π (Option Addr) :=
  this.findVertexByUuid v.uuid

def withLabel (l : String) : List Addr → Prog σ π (List Addr)
  | [] => pure []
  | a :: as => do
    let v ← deref a
    let rest ← withLabel l as
    if v.label == l then pure (a :: rest) else pure rest

def findAllVerticiesWithLabel (this : DAG) (l : String) : Prog σ π (List Addr) :=
  withLabel l this.graph

def containsVertex (this : DAG) (v : DAGVertex σ π) : Prog σ π Bool := do
  pure (← this.findVertex v).isSome

/-- The result, the graph, and what is left of the vertex that was offered. -/
def addVertex (this : DAG) (v : DAGVertex σ π) : Prog σ π (Bool × DAG × DAGVertex σ π) := do
  if ← this.containsVertex v then pure (false, this, v)
  else
    let a ← makeShared v
    pure (true, { this with graph := this.graph ++ [a] }, DAGVertex.moved)

def edgeCount (this : DAG) : Prog σ π ℕ :=
  this.graph.foldlM (fun ret a => do pure (ret + (← deref a).edgeCount)) 0

/-- The body of both removal predicates once the vertex is found. -/
def detach (o : Addr) : Prog σ π Unit := do
  (← deref o).edges.forM fun e => do
    match ← lock e.connection with
    | some c => subIncommingEdge c
    | none => pure ()
  DAGVertex.clearEdges o

/-- The predicate of both removals. -/
def detachIf (found : Addr → Prog σ π Bool) (o : Addr) : Prog σ π Bool := do
  let b ← found o
  if b then
    detach o
  pure b

/-- An element that stays is moved over the first of the slots to erase: the vertex there loses an owner. -/
def moveOver : List (Option Addr) → Prog σ π (List (Option Addr))
  | [] => pure []
  | slot :: slots => do
    modify fun m => m.release slot.toList
    pure (slots ++ [none])

/-- `std::remove_if`: the elements that stay, and the slots to erase with what they hold in the end. -/
def removeIf (pred : Addr → Prog σ π Bool) :
    List Addr → List (Option Addr) → Prog σ π (List Addr × List (Option Addr))
  | [], slots => pure ([], slots)
  | a :: as, slots => do
    if ← pred a then removeIf pred as (slots ++ [some a])
    else
      let slots ← moveOver slots
      let (kept, slots) ← removeIf pred as slots
      pure (a :: kept, slots)

def eraseIf (this : DAG) (found : Addr → Prog σ π Bool) : Prog σ π (Bool × DAG) := do
  let (kept, slots) ← removeIf (detachIf found) this.graph []
  modify fun m => m.release slots.reduceOption
  pure (!slots.isEmpty, { this with graph := kept })

def removeVertex (this : DAG) (v : VertexRef σ π) : Prog σ π (Bool × DAG) :=
  this.eraseIf fun o => do pure ((← deref o).eq (← v.read))

def removeVertexByUuid (this : DAG) (id : UUID) : Prog σ π (Bool × DAG) :=
  this.eraseIf fun o => do pure ((← deref o).uuid.eq id)

def removeFound (this : DAG) (v : Addr) : Prog σ π DAG := do
  let (_, g) ← this.removeVertex (VertexRef.object v)
  pure g

def removeAllVertexWithLabel (this : DAG) (label : String) : Prog σ π (Bool × DAG) := do
  let found ← withLabel label this.graph
  modify fun m => m.retain found
  let g ← found.foldlM removeFound this
  modify fun m => m.release found
  pure (!found.isEmpty, g)

def reset (this : DAG) : Prog σ π DAG := do
  modify fun m => m.release this.graph
  pure { this with graph := [] }

variable [TaskStage σ] [TaskCallbackPlugin π]

def connectClones (this : DAG) (toVertex : Addr) : List (DAGVertex.Connection σ π) → Prog σ π Unit
  | [] => pure ()
  | c :: cs => do
    let find ← this.findVertex c.vertex
    match find with
    | none => throw .assertion
    | some a => do
      let _ ← DAGVertex.connect toVertex a
      this.connectClones toVertex cs

def cloneConnections (this : DAG) (fromVertex toVertex : Addr) : Prog σ π Unit := do
  cppAssert ((← deref fromVertex).uuid.eq (← deref toVertex).uuid)
  this.connectClones toVertex (← DAGVertex.cloneAllConnections fromVertex)

/-- The loop over the indices of `graph_`; `other.graph_` is read at the same index. -/
def cloneEachConnection (this : DAG) : List Addr → List Addr → Prog σ π Unit
  | _, [] => pure ()
  | [], _ :: _ => throw .outOfRange
  | a :: as, b :: bs => do
    this.cloneConnections a b
    this.cloneEachConnection as bs

def addClone (this : DAG) (a : Addr) : Prog σ π DAG := do
  let (_, g, _) ← this.addVertex (← deref a).clone
  pure g

def addClones (this : DAG) (other : List Addr) : Prog σ π DAG :=
  other.foldlM addClone this

def clone (other : DAG) : Prog σ π DAG := do
  let this ← addClones ⟨[], "", some .null⟩ other.graph
  this.cloneEachConnection other.graph this.graph
  match other.jsonConfig with
  | none => throw .nullDereference
  | some config => pure { this with title := other.title, jsonConfig := some config }

/-- The copy assignment of one object to another. It adds to the vertices that `this` has. -/
def assign (this rhs : DAG) : Prog σ π DAG := do
  let this ← addClones this rhs.graph
  this.cloneEachConnection rhs.graph this.graph
  match this.jsonConfig, rhs.jsonConfig with
  | some _, some config => pure { this with title := rhs.title, jsonConfig := some config }
  | _, _ => throw .nullDereference

def destroy (this : DAG) : Prog σ π Unit := modify fun m => m.release this.graph

end DAG

end DagScheduler.Graphs

import DagScheduler.Graphs.Runs
import DagScheduler.Library.Plans

/-! What a graph is to its clients: a plan without addresses, counters and owners. The operations of
a client, on plans, and the operations of the code with what they answer. -/

namespace DagScheduler.Graphs

open Library Library.Programs Library.Plans

variable {σ π : Type}

/-- What a vertex carries besides its identifier and its edges. -/
structure Card (σ π : Type) where
  currentStatus : VertexStatus
  label : String
  task : Option (Task σ π)

abbrev Blueprint (σ π : Type) := Plan UUID (Card σ π)

def DAGVertex.card (v : DAGVertex σ π) : Card σ π := ⟨v.currentStatus, v.label, v.task⟩

def DAGVertex.node (v : DAGVertex σ π) : Node UUID (Card σ π) := ⟨v.uuid, v.card, []⟩

/-- What a `const DAGVertex &` refers to; `none` where the vertex is gone. -/
def VertexRef.target (m : Memory σ π) : VertexRef σ π → Option (DAGVertex σ π)
  | value v => some v
  | object a => m.vertex a

def Card.clone [TaskStage σ] [TaskCallbackPlugin π] (c : Card σ π) : Card σ π :=
  ⟨c.currentStatus, c.label, c.task.map Task.clone⟩

namespace Blueprint

/-- `operator==`, of a node that has its edges and its in-degree. -/
def shows (p : Blueprint σ π) (v : DAGVertex σ π) (n : Node UUID (Card σ π)) : Bool :=
  n.name = v.uuid && n.data.currentStatus = v.currentStatus && n.data.label = v.label &&
    n.out.length = v.edgeCount && Plan.degree p n.name = v.incommingEdgeCount

def labelled (p : Blueprint σ π) (l : String) : List UUID := (p.filter fun n => n.data.label = l).map Node.name

structure Outcome (σ π : Type) where
  /-- `none` for the calls that return nothing. -/
  answer : Option (Plan.Answer UUID)
  plan : Blueprint σ π
  made : List (Blueprint σ π)

def replies (r : Plan.Answer UUID × Blueprint σ π) : Outcome σ π := ⟨some r.1, r.2, []⟩

variable [TaskStage σ] [TaskCallbackPlugin π]

def clone (p : Blueprint σ π) : Blueprint σ π := Plan.relabel Card.clone p

/-- `none` where the call ends with a fault. -/
noncomputable def perform (read : VertexRef σ π → Option (DAGVertex σ π)) (p : Blueprint σ π) :
    Call σ π → Option (Outcome σ π)
  | .addVertex v => some ⟨some (.ok !(Plan.has p v.uuid)), Plan.add p v.node, []⟩
  | .connect v1 v2 => (Plan.connect p v1.uuid v2.uuid).map replies
  | .connectByUuid u1 u2 => if Plan.has p u1 && Plan.has p u2 then (Plan.connect p u1 u2).map replies else none
  | .connectAllByLabel l1 l2 => (Plan.connectPairs p true ((labelled p l1).product (labelled p l2))).map replies
  | .addAndConnect v1 v2 => (Plan.connect (Plan.add (Plan.add p v1.node) v2.node) v1.uuid v2.uuid).map replies
  | .removeVertex r =>
    match read r with
    | some v => some ⟨some (.ok (p.any (shows p v))), Plan.without p (shows p v), []⟩
    | none => if p.isEmpty then some ⟨some (.ok false), p, []⟩ else none
  | .removeVertexByUuid id => some ⟨some (.ok (Plan.has p id)), Plan.without p fun n => n.name = id, []⟩
  | .removeAllVertexWithLabel l =>
    some ⟨some (.ok (p.any fun n => n.data.label = l)), Plan.without p fun n => n.data.label = l, []⟩
  | .reset => some ⟨none, [], []⟩
  | .clone => if Plan.stale p then none else some ⟨none, p, [clone p]⟩

noncomputable def step (read : VertexRef σ π → Option (DAGVertex σ π)) (ps : List (Blueprint σ π)) (i : ℕ)
    (c : Call σ π) : Option (Option (Plan.Answer UUID) × List (Blueprint σ π)) :=
  (ps[i]?).bind fun p => (perform read p c).map fun o => (o.answer, ps.set i o.plan ++ o.made)

end Blueprint

/-! The plan of a graph. -/

namespace Memory

variable (m : Memory σ π) (a : Addr)

def name : UUID := ((m.vertex a).map DAGVertex.uuid).getD .null

def card : Card σ π := ((m.vertex a).map DAGVertex.card).getD ⟨.invalid, "", none⟩

def out : List (Option Addr) :=
  (((m.vertex a).map DAGVertex.edges).getD []).map fun e => e.connection.filter fun c => (m.vertex c).isSome

end Memory

def DAG.draw (g : DAG) (m : Memory σ π) : Blueprint σ π := Plan.draw g.graph m.name m.card m.out

def World.draw (w : World σ π) : List (Blueprint σ π) := w.dags.map fun g => g.draw w.memory

/-- The two identifiers of an exception. -/
def DAG.Reply.draw (r : DAG.Reply σ π) : Plan.Answer UUID := r.mapError fun e => (e.v1.uuid, e.v2.uuid)

/-- What a client sees of a call that returned. -/
def Blueprint.seen (r : (Option (DAG.Reply σ π) × DAG × List DAG) × Memory σ π) : Blueprint.Outcome σ π :=
  ⟨r.1.1.map DAG.Reply.draw, r.1.2.1.draw r.2, r.1.2.2.map fun k => k.draw r.2⟩

/-! The calls with what they answer. -/

variable [TaskStage σ] [TaskCallbackPlugin π]

def Call.respond (g : DAG) : Call σ π → Prog σ π (Option (DAG.Reply σ π) × DAG × List DAG)
  | addVertex v => do
    let (b, g, _) ← g.addVertex v
    pure (some (.ok b), g, [])
  | connect v1 v2 => do
    pure (some (← g.connect v1 v2), g, [])
  | connectByUuid u1 u2 => do
    pure (some (← g.connectByUuid u1 u2), g, [])
  | connectAllByLabel l1 l2 => do
    pure (some (← g.connectAllByLabel l1 l2), g, [])
  | addAndConnect v1 v2 => do
    let (r, g) ← g.addAndConnect v1 v2
    pure (some r, g, [])
  | removeVertex v => do
    let (b, g) ← g.removeVertexHeld v
    pure (some (.ok b), g, [])
  | removeVertexByUuid id => do
    let (b, g) ← g.removeVertexByUuid id
    pure (some (.ok b), g, [])
  | removeAllVertexWithLabel label => do
    let (b, g) ← g.removeAllVertexWithLabel label
    pure (some (.ok b), g, [])
  | reset => do
    pure (none, ← g.reset, [])
  | clone => do
    pure (none, g, [← g.clone])

def World.respond (w : World σ π) (i : ℕ) (c : Call σ π) : Option (Option (DAG.Reply σ π) × World σ π) :=
  (w.dags[i]?).bind fun g =>
    (outcome (c.respond g) w.memory).map fun r => (r.1.1, ⟨w.dags.set i r.1.2.1 ++ r.1.2.2, r.2⟩)

end DagScheduler.Graphs

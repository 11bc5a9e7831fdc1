import DagScheduler.Graphs.Connections
import DagScheduler.Library.Digraphs

/-! What a memory says about its vertices, and what the primitive calls do to it. -/

namespace DagScheduler.Graphs

open Library Library.Programs Library.Digraphs

variable {σ π : Type}

namespace Memory

variable (m : Memory σ π)

def Live (a : Addr) : Prop := (m.vertex a).isSome

def uuid (a : Addr) : Option UUID := (m.vertex a).map DAGVertex.uuid

def edges (a : Addr) : List DAGEdge := ((m.vertex a).map DAGVertex.edges).getD []

def count (a : Addr) : ℕ := ((m.vertex a).map DAGVertex.incommingEdgeCount).getD 0

def connection (e : DAGEdge) : Option Addr := e.connection.filter fun c => (m.vertex c).isSome

def targets (a : Addr) : List Addr := (m.edges a).filterMap m.connection

end Memory

/-- A vertex without what changes when edges are added, cut or counted. -/
def DAGVertex.core (v : DAGVertex σ π) : DAGVertex σ π :=
  { v with edges := [], incommingEdgeCount := 0 }

variable {m m' : Memory σ π} {a b c : Addr} {v w : DAGVertex σ π}

lemma Memory.live_iff : m.Live a ↔ ∃ v, m.vertex a = some v := Option.isSome_iff_exists

lemma Memory.live_of_vertex (h : m.vertex a = some v) : m.Live a := by simp [Live, h]

lemma edges_of_vertex (h : m.vertex a = some v) : m.edges a = v.edges := by simp [Memory.edges, h]

lemma count_of_vertex (h : m.vertex a = some v) : m.count a = v.incommingEdgeCount := by
  simp [Memory.count, h]

lemma uuid_of_vertex (h : m.vertex a = some v) : m.uuid a = some v.uuid := by simp [Memory.uuid, h]

lemma uuid_of_core (hcore : (m'.vertex a).map DAGVertex.core = (m.vertex a).map DAGVertex.core) :
    m'.uuid a = m.uuid a := by
  have h := congrArg (Option.map DAGVertex.uuid) hcore
  simpa only [Option.map_map, Function.comp_def, DAGVertex.core, Memory.uuid] using h

lemma vertex_lt (h : m.Live a) : a < m.vertices.next := by
  obtain ⟨v, hv⟩ := Memory.live_iff.mp h
  exact m.vertices.value_lt hv

lemma connection_eq_some {e : DAGEdge} : m.connection e = some c ↔ e.connection = some c ∧ m.Live c := by
  simp [Memory.connection, Memory.Live, Option.filter_eq_some_iff]

lemma mem_targets : c ∈ m.targets a ↔ ∃ e ∈ m.edges a, e.connection = some c ∧ m.Live c := by
  simp [Memory.targets, connection_eq_some]

lemma live_of_mem_targets (h : c ∈ m.targets a) : m.Live c := by
  obtain ⟨e, _, _, hl⟩ := mem_targets.mp h
  exact hl

/-! The calls that read. -/

@[simp] lemma returns_deref : Returns (deref a) m v m' ↔ m.vertex a = some v ∧ m' = m := by
  simp only [deref, returns_bind, returns_get, and_assoc, exists_and_left, exists_eq_left]
  cases hv : m.vertex a with
  | none => simp
  | some w =>
    simp only [returns_pure, Option.some.injEq]
    tauto

@[simp] lemma returns_lock {x r : Option Addr} :
    Returns (lock x) m r m' ↔ r = x.filter (fun a => (m.vertex a).isSome) ∧ m' = m := by
  simp only [lock, returns_bind, returns_get, returns_pure, and_assoc, exists_and_left, exists_eq_left]

lemma returns_lock_edge {e : DAGEdge} {r : Option Addr} :
    Returns (lock e.connection) m r m' ↔ r = m.connection e ∧ m' = m := returns_lock

lemma filter_live (h : m.Live a) :
    (some a).filter (fun a => (m.vertex a).isSome) = some a := by
  rw [Option.filter_eq_some_iff]
  exact ⟨rfl, h⟩

@[simp] lemma returns_derefLocked {x : Option Addr} :
    Returns (derefLocked x) m v m' ↔ ∃ a, x = some a ∧ m.vertex a = some v ∧ m' = m := by
  cases x <;> simp [derefLocked]

@[simp] lemma returns_cppAssert {x : Bool} {u : Unit} :
    Returns (cppAssert x) m u m' ↔ x = true ∧ m' = m := by
  cases x <;> simp [cppAssert]

/-! The calls that write. -/

lemma vertex_modifyVertex (f : DAGVertex σ π → DAGVertex σ π) :
    (m.modifyVertex a f).vertex b = if b = a then (m.vertex a).map f else m.vertex b :=
  m.vertices.value_modify a b f

lemma vertex_sub (k : ℕ) : (m.sub a k).vertex b =
    if b = a then (m.vertex a).map DAGVertex.decremented else m.vertex b :=
  vertex_modifyVertex DAGVertex.decremented

lemma vertex_add : (m.add a).vertex b =
    if b = a then (m.vertex a).map DAGVertex.incremented else m.vertex b :=
  vertex_modifyVertex DAGVertex.incremented

@[simp] lemma returns_modifyVertex {f : DAGVertex σ π → DAGVertex σ π} {u : Unit} :
    Returns (modifyVertex a f) m u m' ↔ m' = m.modifyVertex a f := by
  simp [modifyVertex]

@[simp] lemma returns_subIncommingEdge {u : Unit} :
    Returns (subIncommingEdge a) m u m' ↔
      ∃ v, m.vertex a = some v ∧ m' = m.sub a v.incommingEdgeCount := by
  simp only [subIncommingEdge, returns_bind, returns_deref, returns_modify]
  constructor
  · rintro ⟨v, t, ⟨hv, rfl⟩, rfl⟩
    exact ⟨v, hv, rfl⟩
  · rintro ⟨v, hv, rfl⟩
    exact ⟨v, m, ⟨hv, rfl⟩, rfl⟩

@[simp] lemma returns_addIncommingEdge {u : Unit} :
    Returns (addIncommingEdge a) m u m' ↔ m.Live a ∧ m' = m.add a := by
  simp only [addIncommingEdge, returns_bind, returns_deref, returns_modify, Memory.live_iff]
  constructor
  · rintro ⟨v, t, ⟨hv, rfl⟩, rfl⟩
    exact ⟨⟨v, hv⟩, rfl⟩
  · rintro ⟨⟨v, hv⟩, rfl⟩
    exact ⟨v, m, ⟨hv, rfl⟩, rfl⟩

@[simp] lemma returns_makeShared {a : Addr} :
    Returns (makeShared v) m a m' ↔
      a = m.vertices.next ∧ m' = { m with vertices := m.vertices.makeShared v } := by
  simp only [makeShared, returns_bind, returns_get, returns_set, returns_pure]
  constructor
  · rintro ⟨s, t, ⟨rfl, rfl⟩, _, s', rfl, rfl, rfl⟩
    exact ⟨rfl, rfl⟩
  · rintro ⟨rfl, rfl⟩
    exact ⟨m, m, ⟨rfl, rfl⟩, (), _, rfl, rfl, rfl⟩

@[simp] lemma returns_uuidGenerate {u : UUID} :
    Returns uuidGenerate m u m' ↔
      u = m.entropy 0 ∧ m' = { m with entropy := fun n => m.entropy (n + 1) } := by
  simp only [uuidGenerate, returns_bind, returns_get, returns_set, returns_pure]
  constructor
  · rintro ⟨s, t, ⟨rfl, rfl⟩, _, s', rfl, rfl, rfl⟩
    exact ⟨rfl, rfl⟩
  · rintro ⟨rfl, rfl⟩
    exact ⟨m, m, ⟨rfl, rfl⟩, (), _, rfl, rfl, rfl⟩

lemma Memory.release_retain {as : List Addr} (hn : as.Nodup) (has : ∀ a ∈ as, 0 < m.vertices.owners a) :
    (m.retain as).release as = m := by
  simp only [Memory.release, Memory.retain, m.vertices.releaseAll_retainAll hn has]

/-! Memories that differ only in edges and counts, and only on the vertices of a set. -/

structure Frame (S : Addr → Prop) (m m' : Memory σ π) : Prop where
  cell : ∀ a, ¬ S a → m'.vertices.cell a = m.vertices.cell a
  core : ∀ a, (m'.vertex a).map DAGVertex.core = (m.vertex a).map DAGVertex.core
  owners : ∀ a, m'.vertices.owners a = m.vertices.owners a
  next : m'.vertices.next = m.vertices.next

namespace Frame

variable {S T : Addr → Prop} {m₁ m₂ m₃ : Memory σ π}

lemma refl (S : Addr → Prop) (m : Memory σ π) : Frame S m m := ⟨fun _ _ => rfl, fun _ => rfl, fun _ => rfl, rfl⟩

lemma trans (h : Frame S m₁ m₂) (h' : Frame S m₂ m₃) : Frame S m₁ m₃ where
  cell a ha := (h'.cell a ha).trans (h.cell a ha)
  core a := (h'.core a).trans (h.core a)
  owners a := (h'.owners a).trans (h.owners a)
  next := h'.next.trans h.next

lemma symm (h : Frame S m₁ m₂) : Frame S m₂ m₁ where
  cell a ha := (h.cell a ha).symm
  core a := (h.core a).symm
  owners a := (h.owners a).symm
  next := h.next.symm

lemma mono (h : Frame S m₁ m₂) (hST : ∀ a, S a → T a) : Frame T m₁ m₂ where
  cell a ha := h.cell a (fun hs => ha (hST a hs))
  core := h.core
  owners := h.owners
  next := h.next

lemma vertex (h : Frame S m₁ m₂) (ha : ¬ S a) : m₂.vertex a = m₁.vertex a :=
  SharedHeap.value_of_cell_eq (h.cell a ha)

lemma isSome (h : Frame S m₁ m₂) (a : Addr) : (m₂.vertex a).isSome = (m₁.vertex a).isSome := by
  have := congrArg Option.isSome (h.core a)
  simpa using this

lemma live (h : Frame S m₁ m₂) (a : Addr) : m₂.Live a ↔ m₁.Live a := by
  simp only [Memory.Live, h.isSome]

lemma uuid (h : Frame S m₁ m₂) (a : Addr) : m₂.uuid a = m₁.uuid a := uuid_of_core (h.core a)

lemma connection (h : Frame S m₁ m₂) (e : DAGEdge) : m₂.connection e = m₁.connection e := by
  simp only [Memory.connection, h.isSome]

lemma targets (h : Frame S m₁ m₂) (he : m₂.edges a = m₁.edges a) : m₂.targets a = m₁.targets a := by
  simp only [Memory.targets, he, funext h.connection]

lemma modifyVertex (m : Memory σ π) (a : Addr) {f : DAGVertex σ π → DAGVertex σ π}
    (hf : ∀ v, (f v).core = v.core) : Frame (· = a) m (m.modifyVertex a f) where
  cell b hb := m.vertices.cell_modify_ne f hb
  core b := by
    rw [vertex_modifyVertex]
    split_ifs with hb
    · subst hb
      simp [Option.map_map, Function.comp_def, hf]
    · rfl
  owners b := m.vertices.owners_modify a b f
  next := rfl

lemma sub (m : Memory σ π) (a : Addr) (k : ℕ) : Frame (· = a) m (m.sub a k) :=
  have h := modifyVertex m a (f := DAGVertex.decremented) (fun _ => rfl)
  ⟨h.cell, h.core, h.owners, h.next⟩

lemma add (m : Memory σ π) (a : Addr) : Frame (· = a) m (m.add a) := modifyVertex m a (fun _ => rfl)

end Frame

lemma edges_sub (k : ℕ) : (m.sub a k).edges b = m.edges b := by
  simp only [Memory.edges, vertex_sub]
  split_ifs with hb
  · subst hb
    cases m.vertex b <;> rfl
  · rfl

lemma edges_add : (m.add a).edges b = m.edges b := by
  simp only [Memory.edges, vertex_add]
  split_ifs with hb
  · subst hb
    cases m.vertex b <;> rfl
  · rfl

lemma count_sub (k : ℕ) (ha : m.Live a) (hpos : 0 < m.count a) :
    (m.sub a k).count = Function.update m.count a (m.count a - 1) := by
  obtain ⟨v, hv⟩ := Memory.live_iff.mp ha
  funext b
  by_cases hb : b = a
  · subst hb
    have hc := count_of_vertex hv
    have hne : v.incommingEdgeCount ≠ 0 := by omega
    simp [Memory.count, vertex_sub, hv, DAGVertex.decremented, decrement, hne]
  · simp [Memory.count, vertex_sub, hb]

lemma count_add (ha : m.Live a) :
    (m.add a).count = Function.update m.count a (m.count a + 1) := by
  obtain ⟨v, hv⟩ := Memory.live_iff.mp ha
  funext b
  by_cases hb : b = a
  · subst hb
    simp [Memory.count, vertex_add, hv, DAGVertex.incremented]
  · simp [Memory.count, vertex_add, hb]

lemma count_modifyEdges (f : DAGVertex σ π → List DAGEdge) :
    (m.modifyVertex a fun v => { v with edges := f v }).count b = m.count b := by
  simp only [Memory.count, vertex_modifyVertex]
  split_ifs with hb
  · subst hb
    cases m.vertex b <;> rfl
  · rfl

lemma edges_modifyEdges_self (f : DAGVertex σ π → List DAGEdge) (hv : m.vertex a = some v) :
    (m.modifyVertex a fun v => { v with edges := f v }).edges a = f v := by
  simp [Memory.edges, vertex_modifyVertex, hv]

lemma edges_modifyVertex_ne (f : DAGVertex σ π → DAGVertex σ π) (hb : b ≠ a) :
    (m.modifyVertex a f).edges b = m.edges b := by
  simp [Memory.edges, vertex_modifyVertex, hb]

end DagScheduler.Graphs

import DagScheduler.Graphs.Lifetimes
import DagScheduler.GraphProofs.EffectProofs

/-! The incoming counts of vertices outside a graph. No edge that ends tells its target, and no
edge follows a vertex that is moved; the counts are right as long as that does not matter. -/

namespace DagScheduler.Graphs

open Library Library.Programs Library.Digraphs Library.Transitions

variable {σ π : Type} {m m' : Memory σ π} {a b c x y : Addr} {v w : DAGVertex σ π}

namespace Memory

variable (m)

/-- A connection observes a vertex that exists, or existed. -/
def Known : Prop := ∀ a v, m.vertex a = some v → v.Known m

/-- The number of edges of live vertices whose connection is `v`. -/
def pointers (v : Addr) : ℕ := inDegree (List.range m.vertices.next) m.targets v

def pointersFromOthers (x v : Addr) : ℕ :=
  inDegree ((List.range m.vertices.next).filter (· ≠ x)) m.targets v

structure Balanced : Prop where
  counted : ∀ a v, m.vertex a = some v → v.incommingEdgeCount = m.pointers a
  unpointed : ∀ a v, m.vertex a = some v → (∀ u, a ∉ m.targets u) → v.hasIncommingEdges = false

variable {m}

lemma targets_of_not_live (h : ¬ m.Live a) : m.targets a = [] := by
  have hv : m.vertex a = none := by simpa [Live] using h
  simp [targets, edges, hv]

lemma pointers_eq_zero : m.pointers a = 0 ↔ ∀ u, a ∉ m.targets u := by
  rw [pointers, inDegree_eq_zero]
  constructor
  · intro h u hu
    by_cases hl : m.Live u
    · exact h u (List.mem_range.mpr (vertex_lt hl)) hu
    · simp [targets_of_not_live hl] at hu
  · exact fun h u _ => h u

lemma balanced_iff : m.Balanced ↔ ∀ a, m.Live a → m.count a = m.pointers a := by
  constructor
  · intro h a ha
    obtain ⟨v, hv⟩ := live_iff.mp ha
    rw [count_of_vertex hv, h.counted a v hv]
  · intro h
    have hcounted : ∀ a v, m.vertex a = some v → v.incommingEdgeCount = m.pointers a := by
      intro a v hv
      rw [← count_of_vertex hv, h a (live_of_vertex hv)]
    refine ⟨hcounted, fun a v hv hno => ?_⟩
    simp [DAGVertex.hasIncommingEdges, hcounted a v hv, pointers_eq_zero.mpr hno]

lemma pointersFromOthers_add : m.pointersFromOthers x a + (m.targets x).count a = m.pointers a := by
  have hpart := inDegree_partition (fun u => decide (u ≠ x)) (List.range m.vertices.next) m.targets a
  have hself : inDegree ((List.range m.vertices.next).filter fun u => !decide (u ≠ x)) m.targets a =
      (m.targets x).count a := by
    by_cases hx : m.Live x
    · have hone : ((List.range m.vertices.next).filter fun u => !decide (u ≠ x)) = [x] := by
        have hmem : x ∈ List.range m.vertices.next := List.mem_range.mpr (vertex_lt hx)
        simp only [ne_eq, decide_not, Bool.not_not]
        rw [List.filter_eq, List.count_eq_one_of_mem List.nodup_range hmem]
        rfl
      rw [hone]
      simp
    · have hnil := targets_of_not_live hx
      rw [hnil, List.count_nil, inDegree_eq_zero]
      intro u hu
      obtain rfl : u = x := by simpa using (List.mem_filter.mp hu).2
      simp [hnil]
  rw [pointersFromOthers, pointers, ← hpart, hself]

/-! What the writes do to the edges and the counts. -/

def resolve (m : Memory σ π) (es : List DAGEdge) : List Addr := es.filterMap m.connection

lemma targets_of_vertex (hv : m.vertex a = some v) : m.targets a = m.resolve v.edges := by
  rw [targets, edges_of_vertex hv, resolve]

section Write

variable {f : DAGVertex σ π → DAGVertex σ π}

lemma isSome_modifyVertex : ((m.modifyVertex x f).vertex a).isSome = (m.vertex a).isSome := by
  rw [vertex_modifyVertex]
  split_ifs with h
  · rw [h, Option.isSome_map]
  · rfl

lemma live_modifyVertex : (m.modifyVertex x f).Live a ↔ m.Live a := by
  simp only [Live, isSome_modifyVertex]

lemma resolve_modifyVertex : (m.modifyVertex x f).resolve = m.resolve := by
  funext es
  have hc : (m.modifyVertex x f).connection = m.connection := by
    funext e
    simp only [connection, isSome_modifyVertex]
  simp only [resolve, hc]

lemma targets_modifyVertex (hv : m.vertex x = some v) :
    (m.modifyVertex x f).targets = Function.update m.targets x (m.resolve (f v).edges) := by
  have hc : (m.modifyVertex x f).connection = m.connection := by
    funext e
    simp only [connection, isSome_modifyVertex]
  funext a
  by_cases ha : a = x
  · subst ha
    have hv' : (m.modifyVertex a f).vertex a = some (f v) := by simp [vertex_modifyVertex, hv]
    rw [Function.update_self, targets_of_vertex hv', resolve_modifyVertex]
  · rw [Function.update_of_ne ha, targets, targets, edges_modifyVertex_ne f ha, hc]

lemma count_modifyVertex (hv : m.vertex x = some v) :
    (m.modifyVertex x f).count = Function.update m.count x (f v).incommingEdgeCount := by
  funext a
  by_cases ha : a = x
  · subst ha
    simp [count, vertex_modifyVertex, hv]
  · simp [count, vertex_modifyVertex, ha]

lemma pointers_modifyVertex (hv : m.vertex x = some v) :
    (m.modifyVertex x f).pointers a + (m.targets x).count a = m.pointers a + (m.resolve (f v).edges).count a := by
  have hx : x ∈ List.range m.vertices.next := List.mem_range.mpr (vertex_lt (live_of_vertex hv))
  rw [pointers, pointers, targets_modifyVertex hv]
  exact inDegree_update List.nodup_range hx m.targets _ a

end Write

section Make

def make (m : Memory σ π) (v : DAGVertex σ π) : Memory σ π := { m with vertices := m.vertices.makeShared v }

lemma vertex_make : (m.make v).vertex a = if a = m.vertices.next then some v else m.vertex a := by
  split_ifs with h
  · rw [h]
    exact vertex_makeShared_self m v
  · exact m.vertices.value_makeShared_ne v h

lemma connection_make {e : DAGEdge} (he : ∀ c, e.connection = some c → c < m.vertices.next) :
    (m.make v).connection e = m.connection e := by
  apply Option.ext
  intro c
  rw [connection_eq_some, connection_eq_some, Live, Live, vertex_make]
  constructor
  · rintro ⟨hc, hl⟩
    rw [if_neg (he c hc).ne] at hl
    exact ⟨hc, hl⟩
  · rintro ⟨hc, hl⟩
    rw [if_neg (he c hc).ne]
    exact ⟨hc, hl⟩

lemma resolve_make {es : List DAGEdge} (he : ∀ e ∈ es, ∀ c, e.connection = some c → c < m.vertices.next) :
    (m.make v).resolve es = m.resolve es := List.filterMap_congr fun e hes => connection_make (he e hes)

lemma targets_make (hk : m.Known) (hv : v.Known m) :
    (m.make v).targets = Function.update m.targets m.vertices.next (m.resolve v.edges) := by
  funext a
  by_cases ha : a = m.vertices.next
  · subst ha
    have hv' : (m.make v).vertex m.vertices.next = some v := by simp [vertex_make]
    rw [Function.update_self, targets_of_vertex hv', resolve_make hv]
  · rw [Function.update_of_ne ha]
    have he : (m.make v).vertex a = m.vertex a := by rw [vertex_make, if_neg ha]
    cases hw : m.vertex a with
    | none =>
      have hl : ¬ m.Live a := by simp [Live, hw]
      have hl' : ¬ (m.make v).Live a := by simp [Live, he, hw]
      rw [targets_of_not_live hl, targets_of_not_live hl']
    | some w => rw [targets_of_vertex hw, targets_of_vertex (he.trans hw), resolve_make (hk a w hw)]

lemma count_make : (m.make v).count = Function.update m.count m.vertices.next v.incommingEdgeCount := by
  funext a
  by_cases ha : a = m.vertices.next
  · subst ha
    simp [count, vertex_make]
  · simp [count, vertex_make, ha]

lemma pointers_make (hk : m.Known) (hv : v.Known m) :
    (m.make v).pointers a = m.pointers a + (m.resolve v.edges).count a := by
  have hold : inDegree (List.range m.vertices.next) (m.make v).targets a = m.pointers a := by
    apply inDegree_congr
    intro u hu
    rw [targets_make hk hv, Function.update_of_ne (List.mem_range.mp hu).ne]
  have hnext : (m.make v).vertices.next = m.vertices.next + 1 := rfl
  rw [pointers, hnext, List.range_succ, inDegree_append, hold, targets_make hk hv]
  simp

end Make

section Erase

lemma vertex_erase : (m.erase x).vertex a = if a = x then none else m.vertex a := by
  split_ifs with h
  · subst h
    simp [vertex, erase, SharedHeap.value, SharedHeap.cell_mapCell_self]
  · exact SharedHeap.value_of_cell_eq (m.vertices.cell_mapCell_ne _ h)

lemma live_erase : (m.erase x).Live a ↔ a ≠ x ∧ m.Live a := by
  rw [Live, vertex_erase]
  split_ifs with h <;> simp [h, Live]

lemma connection_erase (e : DAGEdge) : (m.erase x).connection e = (m.connection e).filter (· ≠ x) := by
  apply Option.ext
  intro c
  rw [connection_eq_some, live_erase, Option.filter_eq_some_iff, connection_eq_some]
  simp only [decide_eq_true_eq]
  tauto

lemma targets_erase_ne (ha : a ≠ x) : (m.erase x).targets a = (m.targets a).filter (· ≠ x) := by
  have he : (m.erase x).edges a = m.edges a := by rw [edges, edges, vertex_erase, if_neg ha]
  rw [targets, he, targets, List.filter_filterMap, funext connection_erase]

lemma targets_erase_self : (m.erase x).targets x = [] := targets_of_not_live fun h => (live_erase.mp h).1 rfl

lemma count_erase_ne (ha : a ≠ x) : (m.erase x).count a = m.count a := by
  rw [count, count, vertex_erase, if_neg ha]

lemma pointers_erase (ha : a ≠ x) : (m.erase x).pointers a = m.pointersFromOthers x a := by
  have hfilter : inDegree ((List.range m.vertices.next).filter (· ≠ x)) (m.erase x).targets a =
      inDegree (List.range m.vertices.next) (m.erase x).targets a := by
    apply inDegree_filter
    intro u _ hu
    obtain rfl : u = x := by simpa using hu
    exact targets_erase_self
  rw [pointers, pointersFromOthers]
  refine hfilter.symm.trans (inDegree_congr_count fun u hu => ?_)
  have hne : u ≠ x := by simpa using (List.mem_filter.mp hu).2
  rw [targets_erase_ne hne, List.count_filter (by simpa using ha)]

end Erase

/-! Connections that are known stay known. -/

lemma Known.modifyVertex {f : DAGVertex σ π → DAGVertex σ π} (hk : m.Known)
    (hf : ∀ v, m.vertex x = some v → (f v).Known m) : (m.modifyVertex x f).Known := by
  intro a v hv
  rw [vertex_modifyVertex] at hv
  split_ifs at hv with ha
  · obtain ⟨w, hw, rfl⟩ := Option.map_eq_some_iff.mp hv
    exact hf w hw
  · exact hk a v hv

lemma Known.make (hk : m.Known) (hv : v.Known m) : (m.make v).Known := by
  have hn : m.vertices.next ≤ (m.make v).vertices.next := Nat.le_succ _
  intro a w hw
  rw [vertex_make] at hw
  split_ifs at hw with ha
  · exact Option.some.inj hw ▸ DAG.known_mono hv hn
  · exact DAG.known_mono (hk a w hw) hn

lemma Known.erase (hk : m.Known) : (m.erase x).Known := by
  intro a v hv
  rw [vertex_erase] at hv
  split_ifs at hv with ha
  exact hk a v hv

lemma Known.addEdge (hk : m.Known) (hy : m.Live y) : (m.addEdge x y).Known := by
  have hadd : (Memory.add { m with entropy := fun n => m.entropy (n + 1) } y).Known :=
    Known.modifyVertex hk fun v hv => hk y v hv
  refine hadd.modifyVertex fun v hv e he c hc => ?_
  rcases List.mem_append.mp he with he | he
  · exact hadd x v hv e he c hc
  · rw [List.mem_singleton.mp he, Option.some.injEq] at hc
    exact hc ▸ vertex_lt (m := m) hy

lemma known_of_edges_nil (h : v.edges = []) : v.Known m := fun e he => by simp [h] at he

/-! When the counts stay right. -/

lemma pointers_next : m.pointers m.vertices.next = 0 := by
  rw [pointers_eq_zero]
  intro u hu
  exact (vertex_lt (live_of_mem_targets hu)).false

lemma pointersFromOthers_eq_zero : m.pointersFromOthers x a = 0 ↔ ∀ u, u ≠ x → a ∉ m.targets u := by
  rw [pointersFromOthers, inDegree_eq_zero]
  constructor
  · intro h u hux hu
    by_cases hl : m.Live u
    · exact h u (List.mem_filter.mpr ⟨List.mem_range.mpr (vertex_lt hl), by simpa using hux⟩) hu
    · simp [targets_of_not_live hl] at hu
  · intro h u hu
    exact h u (by simpa using (List.mem_filter.mp hu).2)

lemma Balanced.make (hb : m.Balanced) (hk : m.Known) (he : v.edges = []) (hc : v.incommingEdgeCount = 0) :
    (m.make v).Balanced := by
  rw [balanced_iff] at hb ⊢
  intro a ha
  have hv : v.Known m := fun e hmem => by simp [he] at hmem
  have hp : (m.make v).pointers a = m.pointers a := by simp [pointers_make hk hv, he, resolve]
  rw [Live, vertex_make] at ha
  rw [hp, count_make]
  split_ifs at ha with hn
  · rw [hn, Function.update_self, hc, pointers_next]
  · rw [Function.update_of_ne hn, hb a ha]

lemma Balanced.addEdge (hb : m.Balanced) (hx : m.Live x) (hy : m.Live y) : (m.addEdge x y).Balanced := by
  rw [balanced_iff] at hb ⊢
  intro a ha
  have ha' : m.Live a := ((Frame.addEdge m x y).live a).mp ha
  have hrange : x ∈ List.range m.vertices.next := List.mem_range.mpr (vertex_lt hx)
  have hd := inDegree_update List.nodup_range hrange m.targets (m.targets x ++ [y]) a
  have hp : (m.addEdge x y).pointers a = inDegree (List.range m.vertices.next) (m.addEdge x y).targets a := by
    rw [pointers, (Frame.addEdge m x y).next]
  have hba := hb a ha'
  rw [List.count_append, List.count_singleton] at hd
  rw [hp, targets_addEdge hx hy, count_addEdge hy]
  rw [pointers] at hba
  by_cases hay : a = y
  · subst hay
    simp only [beq_self_eq_true, if_true] at hd
    rw [Function.update_self]
    omega
  · have hne : (y == a) = false := by simpa using Ne.symm hay
    rw [hne] at hd
    rw [Function.update_of_ne hay]
    simp only [Bool.false_eq_true, if_false] at hd
    omega

lemma balanced_erase_iff (hb : m.Balanced) : (m.erase x).Balanced ↔ ∀ c ∈ m.targets x, c = x := by
  rw [balanced_iff] at hb ⊢
  constructor
  · intro h c hc
    by_contra hne
    have hl : m.Live c := live_of_mem_targets hc
    have hnew := h c (live_erase.mpr ⟨hne, hl⟩)
    have hpos : 0 < (m.targets x).count c := List.count_pos_iff.mpr hc
    have hadd := pointersFromOthers_add (m := m) (x := x) (a := c)
    rw [count_erase_ne hne, pointers_erase hne, hb c hl] at hnew
    omega
  · intro h a ha
    obtain ⟨hne, hl⟩ := live_erase.mp ha
    have hzero : (m.targets x).count a = 0 := List.count_eq_zero.mpr fun hm => hne (h a hm)
    have hadd := pointersFromOthers_add (m := m) (x := x) (a := a)
    rw [count_erase_ne hne, pointers_erase hne, hb a hl]
    omega

def generated (m : Memory σ π) : Memory σ π := { m with entropy := fun n => m.entropy (n + 1) }

def moveConstructed (m : Memory σ π) (a : Addr) (v : DAGVertex σ π) : Memory σ π :=
  (m.generated.modifyVertex a fun _ => DAGVertex.moved).make v

def moveAssigned (m : Memory σ π) (x y : Addr) (v : DAGVertex σ π) : Memory σ π :=
  (m.modifyVertex x fun _ => v).modifyVertex y fun w =>
    { (DAGVertex.moved : DAGVertex σ π) with task := if x = y then w.task else none }

lemma pointers_moveConstructed (hk : m.Known) (hv : m.vertex a = some v) :
    (m.moveConstructed a v).pointers b = m.pointers b := by
  have hv' : m.generated.vertex a = some v := hv
  have hk' : m.generated.Known := hk
  have hleft := pointers_modifyVertex (f := fun _ => DAGVertex.moved) (a := b) hv'
  have hk₁ : (m.generated.modifyVertex a fun _ => DAGVertex.moved).Known :=
    hk'.modifyVertex fun _ _ => known_of_edges_nil rfl
  have hmade := pointers_make (a := b) hk₁ (hk a v hv)
  rw [resolve_modifyVertex, ← targets_of_vertex hv'] at hmade
  exact hmade.trans hleft

lemma balanced_moveConstructed_iff (hb : m.Balanced) (hk : m.Known) (hv : m.vertex a = some v) :
    (m.moveConstructed a v).Balanced ↔ ∀ u, a ∉ m.targets u := by
  have hv' : m.generated.vertex a = some v := hv
  have hlive : ∀ b, (m.moveConstructed a v).Live b ↔ b = m.vertices.next ∨ m.Live b := by
    intro b
    have hsame : (m.generated.modifyVertex a fun _ => DAGVertex.moved).Live b ↔ m.Live b := live_modifyVertex
    have hnext : (m.generated.modifyVertex a fun _ => DAGVertex.moved).vertices.next = m.vertices.next := rfl
    rw [← hsame, moveConstructed, Live, vertex_make, hnext]
    split_ifs with hbn <;> simp [hbn, Live]
  have hcount : (m.moveConstructed a v).count =
      Function.update (Function.update m.count a 0) m.vertices.next v.incommingEdgeCount := by
    rw [moveConstructed, count_make, count_modifyVertex hv']
    rfl
  rw [balanced_iff] at hb ⊢
  rw [← pointers_eq_zero]
  have ha : m.Live a := live_of_vertex hv
  have hne : a ≠ m.vertices.next := (vertex_lt ha).ne
  constructor
  · intro h
    have := h a ((hlive a).mpr (.inr ha))
    rw [hcount, pointers_moveConstructed hk hv, Function.update_of_ne hne, Function.update_self] at this
    exact this.symm
  · intro hzero b hl
    rw [hcount, pointers_moveConstructed hk hv]
    rcases (hlive b).mp hl with rfl | hl
    · rw [Function.update_self, pointers_next, ← count_of_vertex hv, hb a ha, hzero]
    · rw [Function.update_of_ne (vertex_lt hl).ne]
      by_cases hba : b = a
      · rw [hba, Function.update_self, hzero]
      · rw [Function.update_of_ne hba, hb b hl]

lemma live_moveAssigned : (m.moveAssigned x y v).Live a ↔ m.Live a :=
  live_modifyVertex.trans live_modifyVertex

lemma vertex_overwritten (hx : m.vertex x = some w) (hy : m.vertex y = some v) :
    (m.modifyVertex x fun _ => v).vertex y = some v := by
  rw [vertex_modifyVertex]
  split_ifs
  · simp [hx]
  · exact hy

lemma pointers_moveAssigned (hx : m.vertex x = some w) (hy : m.vertex y = some v) :
    (m.moveAssigned x y v).pointers a = m.pointersFromOthers x a := by
  have hover := vertex_overwritten hx hy
  have hfirst := pointers_modifyVertex (f := fun _ => v) (a := a) hx
  have hsecond := pointers_modifyVertex (a := a)
    (f := fun w => { (DAGVertex.moved : DAGVertex σ π) with task := if x = y then w.task else none }) hover
  have hgone : (resolve (m.modifyVertex x fun _ => v) (DAGVertex.moved : DAGVertex σ π).edges).count a = 0 := rfl
  have hadd := pointersFromOthers_add (m := m) (x := x) (a := a)
  rw [targets_of_vertex hover, resolve_modifyVertex] at hsecond
  rw [resolve_modifyVertex] at hgone
  have hnew : (m.moveAssigned x y v).pointers a + (m.resolve v.edges).count a =
      (m.modifyVertex x fun _ => v).pointers a := by
    rw [moveAssigned, hsecond]
    simp [hgone]
  omega

lemma count_moveAssigned (hx : m.vertex x = some w) (hy : m.vertex y = some v) :
    (m.moveAssigned x y v).count = Function.update (Function.update m.count x (m.count y)) y 0 := by
  rw [moveAssigned, count_modifyVertex (vertex_overwritten hx hy), count_modifyVertex hx, count_of_vertex hy]
  rfl

lemma balanced_moveAssigned_iff (hb : m.Balanced) (hx : m.vertex x = some w) (hy : m.vertex y = some v) :
    (m.moveAssigned x y v).Balanced ↔ (∀ c ∈ m.targets x, c = x ∨ c = y) ∧ (∀ u, u ≠ x → y ∉ m.targets u) ∧
      (x ≠ y → m.pointersFromOthers x x = (m.targets x).count y) := by
  have hlx : m.Live x := live_of_vertex hx
  have hly : m.Live y := live_of_vertex hy
  have hadd := fun c => pointersFromOthers_add (m := m) (x := x) (a := c)
  rw [balanced_iff] at hb ⊢
  rw [← pointersFromOthers_eq_zero]
  have hnew : (∀ a, (m.moveAssigned x y v).Live a →
      (m.moveAssigned x y v).count a = (m.moveAssigned x y v).pointers a) ↔
      ∀ a, m.Live a → Function.update (Function.update m.count x (m.count y)) y 0 a = m.pointersFromOthers x a := by
    simp only [live_moveAssigned, pointers_moveAssigned hx hy, count_moveAssigned hx hy]
  rw [hnew]
  constructor
  · intro h
    have hy₀ := h y hly
    rw [Function.update_self] at hy₀
    refine ⟨?_, hy₀.symm, ?_⟩
    · intro c hc
      by_contra hno
      obtain ⟨hcx, hcy⟩ := not_or.mp hno
      have hl : m.Live c := live_of_mem_targets hc
      have hc₀ := h c hl
      have hpos : 0 < (m.targets x).count c := List.count_pos_iff.mpr hc
      have hc₁ := hadd c
      rw [Function.update_of_ne hcy, Function.update_of_ne hcx, hb c hl] at hc₀
      omega
    · intro hne
      have hx₀ := h x hlx
      have hy₁ := hadd y
      rw [Function.update_of_ne hne, Function.update_self, hb y hly] at hx₀
      omega
  · rintro ⟨hout, hzero, hswap⟩ a hl
    by_cases hay : a = y
    · rw [hay, Function.update_self, hzero]
    · rw [Function.update_of_ne hay]
      by_cases hax : a = x
      · subst hax
        have hy₁ := hadd y
        rw [Function.update_self, hb y hly, hswap hay]
        omega
      · have hnone : (m.targets x).count a = 0 :=
          List.count_eq_zero.mpr fun hm => (hout a hm).elim hax hay
        have ha₁ := hadd a
        rw [Function.update_of_ne hax, hb a hl]
        omega

end Memory

namespace DAGVertex

lemma connect_live {r : Bool} (hr : Returns (connect x y) m r m') : m.Live x ∧ m.Live y := by
  rw [connect, returns_bind] at hr
  obtain ⟨w, m₁, hw, hr⟩ := hr
  obtain ⟨hw, rfl⟩ := returns_deref.mp hw
  obtain ⟨_, _, hcontains, _⟩ := returns_bind.mp hr
  exact ⟨(returns_containsConnectionTo.mp hcontains).1, Memory.live_of_vertex hw⟩

lemma connect_effect {r : Bool} (hr : Returns (connect x y) m r m') :
    m.Live x ∧ m.Live y ∧ (m' = m ∨ m' = m.addEdge x y) := by
  obtain ⟨hx, hy⟩ := connect_live hr
  refine ⟨hx, hy, ?_⟩
  obtain ⟨w, hw⟩ := Memory.live_iff.mp hy
  have hret := connect_returns hx hw
  split_ifs at hret with hany
  · exact .inl (hr.unique hret).2
  · exact .inr (hr.unique hret).2

end DAGVertex

namespace VertexCall

variable [TaskStage σ] [TaskCallbackPlugin π]

inductive Performs (m : Memory σ π) : VertexCall σ π → Memory σ π → Prop
  | construct (label : String) (task : Option (Task σ π)) : Performs m (construct label task)
      (m.generated.make ⟨m.entropy 0, .initialized, label, [], 0, task⟩)
  | keep (s t : Addr) : Performs m (connect s t) m
  | connect {s t : Addr} (live : m.Live s) (live' : m.Live t) : Performs m (connect s t) (m.addEdge s t)
  | moveConstruct {s : Addr} {u : DAGVertex σ π} (vertex : m.vertex s = some u) : Performs m (moveConstruct s)
      (m.moveConstructed s u)
  | moveAssign {s t : Addr} {u u' : DAGVertex σ π} (vertex : m.vertex s = some u) (vertex' : m.vertex t = some u') :
      Performs m (moveAssign s t) (m.moveAssigned s t u')
  | clone {s : Addr} {u : DAGVertex σ π} (vertex : m.vertex s = some u) : Performs m (clone s) (m.make u.clone)
  | destruct {s : Addr} (live : m.Live s) : Performs m (destruct s) (m.erase s)

lemma step_performs {call : VertexCall σ π} (hs : step m call = some m') : Performs m call m' := by
  have hr : Returns call.perform m () m' := by
    unfold step at hs
    split at hs
    · rename_i hrun
      obtain rfl := Option.some.inj hs
      exact hrun
    · cases hs
  cases call with
  | construct label task =>
    simp only [perform, DAGVertex.new, returns_bind, returns_uuidGenerate, returns_makeShared, returns_pure,
      and_assoc, exists_and_left, exists_eq_left, true_and] at hr
    obtain rfl := hr
    exact .construct label task
  | connect x y =>
    obtain ⟨_, s, hr, hend⟩ := returns_bind.mp hr
    obtain ⟨_, rfl⟩ := returns_pure.mp hend
    obtain ⟨hx, hy, rfl | rfl⟩ := DAGVertex.connect_effect hr
    · exact .keep x y
    · exact .connect hx hy
  | moveConstruct a =>
    simp only [perform, DAGVertex.moveConstruct, returns_bind, returns_uuidGenerate, returns_deref,
      returns_modifyVertex, returns_makeShared, returns_pure, and_assoc, exists_and_left, exists_eq_left,
      true_and] at hr
    obtain ⟨_, _, ⟨v, hv, _, _, rfl⟩, rfl⟩ := hr
    exact .moveConstruct hv
  | moveAssign x y =>
    simp only [perform, DAGVertex.moveAssign, returns_bind, returns_deref, returns_modifyVertex, and_assoc,
      exists_and_left, exists_eq_left] at hr
    obtain ⟨w, hx, v, hy, _, rfl⟩ := hr
    exact .moveAssign hx hy
  | clone a =>
    simp only [perform, returns_bind, returns_deref, returns_makeShared, returns_pure, and_assoc,
      exists_and_left, exists_eq_left, true_and] at hr
    obtain ⟨v, hv, rfl⟩ := hr
    exact .clone hv
  | destruct a =>
    simp only [perform, DAGVertex.destruct, returns_bind, returns_deref, returns_modify, and_assoc,
      exists_and_left, exists_eq_left] at hr
    obtain ⟨v, hv, rfl⟩ := hr
    exact .destruct (Memory.live_of_vertex hv)

lemma Performs.known {call : VertexCall σ π} (hp : Performs m call m') (hk : m.Known) : m'.Known := by
  have hg : m.generated.Known := hk
  cases hp with
  | construct => exact hg.make (Memory.known_of_edges_nil rfl)
  | keep => exact hk
  | connect _ live => exact hk.addEdge live
  | moveConstruct vertex =>
    apply Memory.Known.make
    · exact hg.modifyVertex fun _ _ => Memory.known_of_edges_nil rfl
    · exact hk _ _ vertex
  | moveAssign _ vertex =>
    apply Memory.Known.modifyVertex
    · exact hk.modifyVertex fun _ _ => hk _ _ vertex
    · exact fun _ _ => Memory.known_of_edges_nil rfl
  | clone => exact hk.make (Memory.known_of_edges_nil rfl)
  | destruct => exact hk.erase

/-- The calls that end no edge another vertex counts, and move no vertex that another edge points at,
unless the counts come out right by themselves. -/
def Harmless (m : Memory σ π) : VertexCall σ π → Prop
  | construct _ _ | connect _ _ | clone _ => True
  | moveConstruct other => ∀ u, other ∉ m.targets u
  | moveAssign this rhs =>
    (∀ c ∈ m.targets this, c = this ∨ c = rhs) ∧ (∀ u, u ≠ this → rhs ∉ m.targets u) ∧
      (this ≠ rhs → m.pointersFromOthers this this = (m.targets this).count rhs)
  | destruct this => ∀ c ∈ m.targets this, c = this

instance (m : Memory σ π) : (call : VertexCall σ π) → Decidable (call.Harmless m)
  | construct _ _ | connect _ _ | clone _ => inferInstanceAs (Decidable True)
  | moveConstruct _ => decidable_of_iff _ Memory.pointers_eq_zero
  | moveAssign this rhs =>
    have : Decidable (∀ u, u ≠ this → rhs ∉ m.targets u) := decidable_of_iff _ Memory.pointersFromOthers_eq_zero
    inferInstanceAs (Decidable (_ ∧ _ ∧ _))
  | destruct this => inferInstanceAs (Decidable (∀ c ∈ m.targets this, c = this))

lemma Performs.balanced_iff {call : VertexCall σ π} (hp : Performs m call m') (hk : m.Known) (hb : m.Balanced) :
    m'.Balanced ↔ call.Harmless m := by
  cases hp with
  | construct label task =>
    have hb' : m.generated.Balanced := ⟨hb.counted, hb.unpointed⟩
    have hk' : m.generated.Known := hk
    simp only [Harmless, iff_true]
    exact hb'.make hk' rfl rfl
  | keep =>
    simp only [Harmless, iff_true]
    exact hb
  | connect live live' =>
    simp only [Harmless, iff_true]
    exact hb.addEdge live live'
  | moveConstruct vertex => exact Memory.balanced_moveConstructed_iff hb hk vertex
  | moveAssign vertex vertex' => exact Memory.balanced_moveAssigned_iff hb vertex vertex'
  | clone vertex =>
    simp only [Harmless, iff_true]
    exact hb.make hk rfl rfl
  | destruct => exact Memory.balanced_erase_iff hb

/-- The counts are right after every step exactly if every step was harmless. -/
theorem balanced_iff_harmless {m₀ : Memory σ π} (hk : m₀.Known) (hb : m₀.Balanced)
    {h : List (Memory σ π × VertexCall σ π)} (run : (system m₀).Run h m) :
    ((∀ e ∈ h, e.1.Balanced) ∧ m.Balanced) ↔ ∀ e ∈ h, e.2.Harmless e.1 := by
  induction run with
  | start =>
    have hstart : (system m₀).start.Balanced := hb
    simpa using hstart
  | @step h s t call run hs ih =>
    have hp := step_performs hs
    have hks : s.Known := run.invariant (I := Memory.Known) hk fun _ _ _ hI hs => (step_performs hs).known hI
    simp only [List.mem_append, List.mem_singleton, or_imp, forall_and, forall_eq]
    rw [← ih]
    constructor
    · rintro ⟨⟨hpast, hs⟩, ht⟩
      exact ⟨⟨hpast, hs⟩, (hp.balanced_iff hks hs).mp ht⟩
    · rintro ⟨⟨hpast, hs⟩, hharm⟩
      exact ⟨⟨hpast, hs⟩, (hp.balanced_iff hks hs).mpr hharm⟩

end VertexCall

namespace Sample

def noVertices : Memory Unit Unit where
  vertices := .empty
  entropy n := ⟨BitVec.ofNat 128 (n + 1)⟩
  wrapped := false

lemma noVertices_known : noVertices.Known := fun _ _ h => by simp [noVertices, Memory.vertex, SharedHeap.value, SharedHeap.empty] at h

lemma noVertices_balanced : noVertices.Balanced := by
  rw [Memory.balanced_iff]
  intro a h
  simp [noVertices, Memory.Live, Memory.vertex, SharedHeap.value, SharedHeap.empty] at h

abbrev Life := VertexCall Unit Unit

def targetFirst : List Life := [.construct "1" none, .construct "2" none, .connect 1 0, .destruct 0, .moveConstruct 1]

def sourceFirst : List Life := [.construct "1" none, .construct "2" none, .connect 1 0, .destruct 1]

end Sample

namespace VertexCall

theorem balanced_iff_harmless_sample :
    ∃ m, (system Sample.noVertices).exec Sample.noVertices Sample.targetFirst = some m ∧ m.Balanced := by
  have hany : ((system Sample.noVertices).exec Sample.noVertices Sample.targetFirst).any
      (fun m => (m.vertex 2).isSome) = true := by decide +kernel
  obtain ⟨m, hm, -⟩ := System.exec_any hany
  have hharm : ((system Sample.noVertices).trace Sample.noVertices Sample.targetFirst).all
      (fun e => e.2.Harmless e.1) = true := by decide +kernel
  have hiff := balanced_iff_harmless Sample.noVertices_known Sample.noVertices_balanced (System.exec_trace hm)
  exact ⟨m, hm, (hiff.mpr fun e he => of_decide_eq_true (List.all_eq_true.mp hharm e he)).2⟩

/-- Nothing points at the first vertex any more, and it still counts an edge. -/
theorem balanced_fails :
    ∃ m, (system Sample.noVertices).exec Sample.noVertices Sample.sourceFirst = some m ∧ m.Live 0 ∧
      (∀ u, 0 ∉ m.targets u) ∧ m.count 0 = 1 ∧ ¬ m.Balanced := by
  have hany : ((system Sample.noVertices).exec Sample.noVertices Sample.sourceFirst).any
      (fun m => (m.vertex 0).isSome ∧ m.pointers 0 = 0 ∧ m.count 0 = 1) = true := by decide +kernel
  obtain ⟨m, hm, hp⟩ := System.exec_any hany
  obtain ⟨hl, hzero, hone⟩ := of_decide_eq_true hp
  refine ⟨m, hm, hl, Memory.pointers_eq_zero.mp hzero, hone, fun hb => ?_⟩
  have := Memory.balanced_iff.mp hb 0 hl
  omega

end VertexCall

end DagScheduler.Graphs

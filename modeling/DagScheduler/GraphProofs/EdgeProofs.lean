import DagScheduler.GraphProofs.WellFormed

/-! Connecting two vertices behind the interface of the graph. -/

namespace DagScheduler.Graphs

open Library Library.Programs Library.Digraphs

variable {σ π : Type} {m m' : Memory σ π} {x y c : Addr} {v w : DAGVertex σ π}

lemma DAGVertex.eq_self (v : DAGVertex σ π) : v.eq v = true := by simp [DAGVertex.eq]

lemma uuid_of_eq (h : v.eq w = true) : v.uuid = w.uuid := by
  unfold DAGVertex.eq at h
  split_ifs at h with hs hi
  · simp only [Bool.and_eq_true, beq_iff_eq] at h
    exact UUID.asString_injective h.1.1.1
  · exact absurd (hi.1.trans hi.2.symm) hs

def Memory.leadsTo (m : Memory σ π) (w : DAGVertex σ π) (e : DAGEdge) : Bool :=
  ((m.connection e).bind m.vertex).any fun v => w.eq v

@[simp] lemma returns_isAConnectionTo {e : DAGEdge} {b : Bool} :
    Returns (DAGVertex.isAConnectionTo e w) m b m' ↔ b = m.leadsTo w e ∧ m' = m := by
  simp only [DAGVertex.isAConnectionTo, returns_bind, returns_lock_edge, Memory.leadsTo]
  cases hc : m.connection e with
  | none => simp
  | some c =>
    obtain ⟨v, hv⟩ := Memory.live_iff.mp (connection_eq_some.mp hc).2
    simp [hv, and_comm]

lemma returns_anyConnectionTo {es : List DAGEdge} {b : Bool} :
    Returns (DAGVertex.anyConnectionTo w es) m b m' ↔ b = es.any (m.leadsTo w) ∧ m' = m := by
  induction es with
  | nil => simp [DAGVertex.anyConnectionTo]
  | cons e es ih =>
    simp only [DAGVertex.anyConnectionTo, returns_bind, returns_isAConnectionTo, and_assoc,
      exists_and_left, exists_eq_left, List.any_cons]
    cases m.leadsTo w e <;> simp [ih]

@[simp] lemma returns_containsConnectionTo {b : Bool} :
    Returns (DAGVertex.containsConnectionTo x w) m b m' ↔
      m.Live x ∧ b = (m.edges x).any (m.leadsTo w) ∧ m' = m := by
  simp only [DAGVertex.containsConnectionTo, returns_bind, returns_deref, returns_anyConnectionTo,
    Memory.live_iff]
  constructor
  · rintro ⟨v, s, ⟨hv, rfl⟩, hb⟩
    exact ⟨⟨v, hv⟩, edges_of_vertex hv ▸ hb⟩
  · rintro ⟨⟨v, hv⟩, hb⟩
    exact ⟨v, m, ⟨hv, rfl⟩, edges_of_vertex hv ▸ hb⟩

lemma any_leadsTo : (m.edges x).any (m.leadsTo w) = true ↔
    ∃ c ∈ m.targets x, ∃ v, m.vertex c = some v ∧ w.eq v = true := by
  simp only [List.any_eq_true, Memory.targets, List.mem_filterMap, Memory.leadsTo, Option.any_eq_true,
    Option.bind_eq_some_iff]
  constructor
  · rintro ⟨e, he, v, ⟨c, hc, hv⟩, hwv⟩
    exact ⟨c, ⟨e, he, hc⟩, v, hv, hwv⟩
  · rintro ⟨c, ⟨e, he, hc⟩, v, hv, hwv⟩
    exact ⟨e, he, v, ⟨c, hc, hv⟩, hwv⟩

def Memory.addEdge (m : Memory σ π) (x y : Addr) : Memory σ π :=
  Memory.modifyVertex ({ m with entropy := fun n => m.entropy (n + 1) }.add y) x
    fun v => { v with edges := v.edges ++ [⟨m.entropy 0, .initialized, some y⟩] }

section AddEdge

variable (m x y)

lemma Frame.addEdge : Frame (fun a => a = x ∨ a = y) m (m.addEdge x y) := by
  have hnew : Frame (fun a => a = x ∨ a = y) m { m with entropy := fun n => m.entropy (n + 1) } :=
    ⟨fun _ _ => rfl, fun _ => rfl, fun _ => rfl, rfl⟩
  have hadd := (Frame.add { m with entropy := fun n => m.entropy (n + 1) } y).mono
    (T := fun a => a = x ∨ a = y) (fun _ => Or.inr)
  refine (hnew.trans hadd).trans ((Frame.modifyVertex _ x ?_).mono (fun _ => Or.inl))
  exact fun _ => rfl

@[simp] lemma wrapped_addEdge : (m.addEdge x y).wrapped = m.wrapped := rfl

lemma edges_addEdge_ne {a : Addr} (ha : a ≠ x) : (m.addEdge x y).edges a = m.edges a :=
  (edges_modifyVertex_ne _ ha).trans edges_add

variable {m x y}

lemma edges_addEdge_self (hx : m.Live x) :
    (m.addEdge x y).edges x = m.edges x ++ [⟨m.entropy 0, .initialized, some y⟩] := by
  let m₁ : Memory σ π := { m with entropy := fun n => m.entropy (n + 1) }
  obtain ⟨v, hv⟩ := Memory.live_iff.mp (((Frame.add m₁ y).live x).mpr hx)
  rw [Memory.addEdge, edges_modifyEdges_self _ hv, ← edges_of_vertex hv, edges_add]
  rfl

lemma count_addEdge (hy : m.Live y) :
    (m.addEdge x y).count = Function.update m.count y (m.count y + 1) := by
  funext a
  let m₁ : Memory σ π := { m with entropy := fun n => m.entropy (n + 1) }
  rw [Memory.addEdge, count_modifyEdges, count_add (m := m₁) hy]
  rfl

lemma targets_addEdge (hx : m.Live x) (hy : m.Live y) :
    (m.addEdge x y).targets = Function.update m.targets x (m.targets x ++ [y]) := by
  have hf := Frame.addEdge m x y
  funext a
  by_cases ha : a = x
  · subst ha
    have hnew : m.connection ⟨m.entropy 0, .initialized, some y⟩ = some y :=
      connection_eq_some.mpr ⟨rfl, hy⟩
    rw [Function.update_self, Memory.targets, edges_addEdge_self hx, funext hf.connection,
      List.filterMap_append, List.filterMap_cons_some hnew, List.filterMap_nil, Memory.targets]
  · rw [Function.update_of_ne ha]
    exact hf.targets (edges_addEdge_ne m x y ha)

end AddEdge

lemma returns_connectTo_new (hy : m.Live y) {e : DAGEdge} (he : e.connection = none) {r : Bool × DAGEdge} :
    Returns (e.connectTo (some y)) m r m' ↔ r = (true, { e with connection := some y }) ∧ m' = m.add y := by
  simp only [DAGEdge.connectTo, returns_bind, returns_lock, he, Option.filter_none, and_assoc,
    exists_and_left, exists_eq_left, returns_pure, filter_live hy, returns_addIncommingEdge]
  simp [hy]

lemma connect_returns (hx : m.Live x) (hw : m.vertex y = some w) :
    if (m.edges x).any (m.leadsTo w) then Returns (DAGVertex.connect x y) m false m
    else Returns (DAGVertex.connect x y) m true (m.addEdge x y) := by
  have hy : m.Live y := Memory.live_of_vertex hw
  have hf := Frame.addEdge m x y
  split_ifs with hany
  · simp only [DAGVertex.connect, returns_bind, returns_deref]
    exact ⟨w, m, ⟨hw, rfl⟩, true, m, returns_containsConnectionTo.mpr ⟨hx, hany.symm, rfl⟩, by simp⟩
  · simp only [DAGVertex.connect, returns_bind, returns_deref]
    refine ⟨w, m, ⟨hw, rfl⟩, false, m,
      returns_containsConnectionTo.mpr ⟨hx, (Bool.eq_false_of_not_eq_true hany).symm, rfl⟩, ?_⟩
    let m₁ : Memory σ π := { m with entropy := fun n => m.entropy (n + 1) }
    let e : DAGEdge := ⟨m.entropy 0, .initialized, some y⟩
    simp only [Bool.false_eq_true, if_false, returns_bind, DAGEdge.new, returns_uuidGenerate, returns_pure]
    refine ⟨⟨m.entropy 0, .initialized, none⟩, m₁, ⟨_, m₁, ⟨rfl, rfl⟩, rfl, rfl⟩, (true, e), m₁.add y,
      (returns_connectTo_new (m := m₁) hy rfl).mpr ⟨rfl, rfl⟩, ?_⟩
    obtain ⟨v', hv'⟩ := Memory.live_iff.mp ((hf.live x).mpr hx)
    obtain ⟨w', hw'⟩ := Memory.live_iff.mp ((hf.live y).mpr hy)
    simp only [returns_modifyVertex, returns_deref, returns_cppAssert, returns_isAConnectionTo]
    have hedges : v'.edges.isEmpty = false := by
      rw [← edges_of_vertex hv', edges_addEdge_self hx]
      simp
    have hlead : (m.addEdge x y).leadsTo w' e = true := by
      have hc : (m.addEdge x y).connection e = some y :=
        connection_eq_some.mpr ⟨rfl, (hf.live y).mpr hy⟩
      simp [Memory.leadsTo, hc, hw', DAGVertex.eq_self]
    exact ⟨(), m.addEdge x y, rfl, v', _, ⟨hv', rfl⟩, (), _, ⟨by simp [hedges], rfl⟩, w', _, ⟨hw', rfl⟩,
      true, _, ⟨hlead.symm, rfl⟩, (), _, ⟨rfl, rfl⟩, by simp⟩

namespace DAG

variable {g : DAG} {S : Addr → Prop}

lemma Owned.frame (h : g.Owned m) (hf : Frame S m m') : g.Owned m' :=
  ⟨h.nodup, fun a ha => (hf.live a).mpr (h.live a ha)⟩

lemma DistinctUuids.frame (h : g.DistinctUuids m) (hf : Frame S m m') : g.DistinctUuids m' := by
  intro a ha b hb hab
  rw [hf.uuid, hf.uuid] at hab
  exact h a ha b hb hab

lemma EdgesInside.addEdge (h : g.EdgesInside m) (hx : m.Live x) (hy : y ∈ g.graph) :
    g.EdgesInside (m.addEdge x y) := by
  intro a ha e he
  by_cases hax : a = x
  · subst hax
    rw [edges_addEdge_self hx] at he
    rcases List.mem_append.mp he with he | he
    · exact h a ha e he
    · exact ⟨y, hy, by rw [List.mem_singleton.mp he]⟩
  · rw [edges_addEdge_ne m x y hax] at he
    exact h a ha e he

lemma Closed.addEdge (h : Closed g.graph m.targets) (hx : m.Live x) (hly : m.Live y)
    (hy : y ∈ g.graph) : Closed g.graph (m.addEdge x y).targets := by
  intro a ha c hc
  rw [targets_addEdge hx hly] at hc
  by_cases hax : a = x
  · subst hax
    rw [Function.update_self, List.mem_append, List.mem_singleton] at hc
    rcases hc with hc | rfl
    · exact h a ha c hc
    · exact hy
  · rw [Function.update_of_ne hax] at hc
    exact h a ha c hc

lemma Counted.addEdge (h : g.Counted m) (ho : g.Owned m) (hx : x ∈ g.graph) (hy : m.Live y) :
    g.Counted (m.addEdge x y) := by
  intro a ha
  have hd := inDegree_update ho.nodup hx m.targets (m.targets x ++ [y]) a
  rw [List.count_append, List.count_singleton] at hd
  have ha' := h a ha
  rw [targets_addEdge (ho.live x hx) hy, count_addEdge hy]
  by_cases hay : a = y
  · subst hay
    simp only [Function.update_self, beq_self_eq_true, if_true] at hd ⊢
    omega
  · rw [Function.update_of_ne hay]
    simp only [beq_iff_eq, Ne.symm hay, if_false] at hd
    omega

lemma Simple.addEdge (h : g.Simple m) (hx : m.Live x) (hy : m.Live y) (hn : y ∉ m.targets x) :
    g.Simple (m.addEdge x y) := by
  intro a ha
  rw [targets_addEdge hx hy]
  by_cases hax : a = x
  · subst hax
    rw [Function.update_self]
    refine List.nodup_append.mpr ⟨h a ha, by simp, ?_⟩
    intro b hb c hc
    rw [List.mem_singleton.mp hc]
    exact fun he => hn (he ▸ hb)
  · rw [Function.update_of_ne hax]
    exact h a ha

lemma any_leadsTo_iff (hc : Closed g.graph m.targets) (hu : g.DistinctUuids m) (hx : x ∈ g.graph)
    (hy : y ∈ g.graph) (hw : m.vertex y = some w) :
    (m.edges x).any (m.leadsTo w) = true ↔ y ∈ m.targets x := by
  rw [any_leadsTo]
  constructor
  · rintro ⟨c, hcx, v, hv, hwv⟩
    have hid : m.uuid c = m.uuid y := by
      rw [uuid_of_vertex hv, uuid_of_vertex hw, uuid_of_eq hwv]
    exact hu c (hc x hx c hcx) y hy hid ▸ hcx
  · exact fun h => ⟨y, h, w, hw, w.eq_self⟩

lemma WellFormed.connect (hg : g.WellFormed m) (hx : x ∈ g.graph) (hy : y ∈ g.graph) :
    ∃ r m', Returns (DAGVertex.connect x y) m r m' ∧ g.WellFormed m' ∧
      Frame (· ∈ g.graph) m m' ∧ m'.wrapped = m.wrapped ∧
      m'.targets = Function.update m.targets x (extend (m.targets x) [y]) := by
  obtain ⟨w, hw⟩ := Memory.live_iff.mp (hg.live y hy)
  have hr := connect_returns (hg.live x hx) hw
  have hiff := any_leadsTo_iff hg.inside.closed hg.uuids hx hy hw
  by_cases hyx : y ∈ m.targets x
  · rw [if_pos (hiff.mpr hyx)] at hr
    refine ⟨false, m, hr, hg, Frame.refl _ m, rfl, ?_⟩
    rw [extend_cons, if_pos hyx, extend_nil, Function.update_eq_self]
  · rw [if_neg (fun h => hyx (hiff.mp h))] at hr
    have hf : Frame (· ∈ g.graph) m (m.addEdge x y) := (Frame.addEdge m x y).mono (by
      rintro a (rfl | rfl)
      · exact hx
      · exact hy)
    refine ⟨true, m.addEdge x y, hr, ?_, hf, rfl, ?_⟩
    · exact ⟨⟨hg.toOwned.frame hf, hg.inside.addEdge (hg.live x hx) hy, hg.uuids.frame hf, hg.config⟩,
        hg.counted.addEdge hg.toOwned hx (hg.live y hy),
        hg.simple.addEdge (hg.live x hx) (hg.live y hy) hyx⟩
    · rw [targets_addEdge (hg.live x hx) (hg.live y hy), extend_cons, if_neg hyx, extend_nil]

end DAG

end DagScheduler.Graphs

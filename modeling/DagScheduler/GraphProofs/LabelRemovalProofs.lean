import DagScheduler.GraphProofs.RemovalProofs

/-! Removing a class of vertices at once or one by one, in any order: what is left is the same. The
vertices of the class may point at each other, and others may own them. -/

namespace DagScheduler.Graphs

open Library Library.Programs Library.Digraphs

variable {σ π : Type} {m m' m'' : Memory σ π} {g : DAG} {a c : Addr} {v : DAGVertex σ π} {u : UUID}
  {rs rs' : List Addr}

/-- What is left at `a` of `m` when the vertices of `rs` gave up their edges and their graph no longer owns them. -/
def Memory.withdrawn (m : Memory σ π) (rs : List Addr) (a : Addr) : Option (SharedCell (DAGVertex σ π)) :=
  (m.vertices.cell a).bind fun c =>
    if a ∈ rs ∧ c.owners ≤ 1 then none
    else some {
      value := { c.value with
        edges := if a ∈ rs then [] else c.value.edges
        incommingEdgeCount := c.value.incommingEdgeCount - inDegree rs m.targets a }
      owners := if a ∈ rs then c.owners - 1 else c.owners }

structure Withdrawn (m : Memory σ π) (rs : List Addr) (m' : Memory σ π) : Prop where
  cell : ∀ a, m'.vertices.cell a = m.withdrawn rs a
  next : m'.vertices.next = m.vertices.next
  wrapped : m'.wrapped = m.wrapped

lemma Memory.withdrawn_perm (hp : rs.Perm rs') : m.withdrawn rs = m.withdrawn rs' := by
  funext a
  simp only [withdrawn, hp.mem_iff, inDegree_perm hp]

lemma eq_of_core {w : DAGVertex σ π} (hcore : w.core = v.core) :
    w = { v with edges := w.edges, incommingEdgeCount := w.incommingEdgeCount } := by
  obtain ⟨_, _, _, _, _, _⟩ := w
  obtain ⟨_, _, _, _, _, _⟩ := v
  simp only [DAGVertex.core, DAGVertex.mk.injEq] at hcore ⊢
  tauto

lemma Detached.withdrawn (h : Detached m rs m') (hn : rs.Nodup)
    (hown : ∀ a, m'.vertices.owners a = m.vertices.owners a) (hle : ∀ c, inDegree rs m.targets c ≤ m.count c) :
    Withdrawn m rs (m'.release rs) := by
  obtain ⟨hw, hcount⟩ := h.counts hle
  refine ⟨fun a => ?_, (m'.vertices.next_releaseAll rs).trans h.next, hw⟩
  have hcell : (m'.release rs).vertices.cell a =
      (m'.vertices.cell a).bind fun c => if a ∈ rs ∧ c.owners ≤ 1 then none
        else some { c with owners := if a ∈ rs then c.owners - 1 else c.owners } := by
    by_cases ha : a ∈ rs
    · rw [Memory.release, m'.vertices.cell_releaseAll_of_mem hn ha, SharedHeap.release, SharedHeap.cell_mapCell_self]
      simp [ha]
    · rw [Memory.release, m'.vertices.cell_releaseAll_of_notMem ha]
      simp only [ha, false_and, if_false]
      cases m'.vertices.cell a <;> rfl
  rw [hcell, Memory.withdrawn]
  cases hv : m.vertex a with
  | none =>
    have hv' : m'.vertex a = none := by simpa [hv] using h.isSome a
    rw [Option.map_eq_none_iff.mp hv, Option.map_eq_none_iff.mp hv']
    rfl
  | some v =>
    obtain ⟨w, hw⟩ := Option.isSome_iff_exists.mp ((h.isSome a).trans (by rw [hv]; rfl))
    have hcore := h.core a
    have hedges := h.edges a
    have hc := hcount a
    rw [hv, hw, Option.map_some, Option.map_some, Option.some.injEq] at hcore
    rw [edges_of_vertex hv, edges_of_vertex hw] at hedges
    rw [count_of_vertex hv, count_of_vertex hw] at hc
    have hvalue := eq_of_core hcore
    rw [hedges, hc] at hvalue
    rw [m.vertices.cell_of_value hv, m'.vertices.cell_of_value hw, hown, hvalue]
    rfl

namespace Withdrawn

lemma refl (m : Memory σ π) : Withdrawn m [] m where
  cell a := by
    simp only [Memory.withdrawn]
    cases m.vertices.cell a <;> simp
  next := rfl
  wrapped := rfl

lemma vertex (h : Withdrawn m rs m') (ha : a ∉ rs) : m'.vertex a =
    (m.vertex a).map fun v => { v with incommingEdgeCount := v.incommingEdgeCount - inDegree rs m.targets a } := by
  simp only [Memory.vertex, SharedHeap.value, h.cell, Memory.withdrawn]
  cases m.vertices.cell a <;> simp [ha]

lemma live_of_live (h : Withdrawn m rs m') (ha : m'.Live a) : m.Live a := by
  simp only [Memory.Live, Memory.vertex, SharedHeap.value, h.cell, Memory.withdrawn] at ha ⊢
  cases hc : m.vertices.cell a with
  | none => simp [hc] at ha
  | some c => rfl

lemma live (h : Withdrawn m rs m') (ha : a ∉ rs) : m'.Live a ↔ m.Live a := by
  simp [Memory.Live, h.vertex ha]

lemma uuid (h : Withdrawn m rs m') (ha : a ∉ rs) : m'.uuid a = m.uuid a := by
  simp [Memory.uuid, h.vertex ha, Function.comp_def]

lemma edges (h : Withdrawn m rs m') (ha : a ∉ rs) : m'.edges a = m.edges a := by
  simp [Memory.edges, h.vertex ha, Function.comp_def]

lemma count (h : Withdrawn m rs m') (ha : m'.Live a) : m'.count a = m.count a - inDegree rs m.targets a := by
  simp only [Memory.Live, Memory.count, Memory.vertex, SharedHeap.value, h.cell, Memory.withdrawn] at ha ⊢
  cases hc : m.vertices.cell a with
  | none => simp [hc] at ha
  | some c =>
    simp only [hc, Option.bind_some] at ha ⊢
    split_ifs at ha ⊢
    · simp at ha
    all_goals rfl

/-- Of the edges to a vertex that lives on none is lost. -/
lemma count_targets (h : Withdrawn m rs m') (ha : a ∉ rs) (hc : m'.Live c) :
    (m'.targets a).count c = (m.targets a).count c := by
  have hsame : ∀ e, m'.connection e = some c ↔ m.connection e = some c := by
    intro e
    rw [connection_eq_some, connection_eq_some]
    simp [hc, h.live_of_live hc]
  rw [Memory.targets, Memory.targets, h.edges ha]
  induction m.edges a with
  | nil => rfl
  | cons e es ih =>
    simp only [List.filterMap_cons]
    have he := hsame e
    cases h1 : m'.connection e <;> cases h2 : m.connection e <;> simp_all [List.count_cons]

lemma trans (h : Withdrawn m rs m') (h' : Withdrawn m' rs' m'') (hd : ∀ a ∈ rs', a ∉ rs) :
    Withdrawn m (rs ++ rs') m'' where
  cell a := by
    rw [h'.cell, Memory.withdrawn, Memory.withdrawn]
    have hdeg (hl : m'.Live a) : inDegree rs' m'.targets a = inDegree rs' m.targets a :=
      inDegree_congr_count fun r hr => h.count_targets (hd r hr) hl
    have hcell := h.cell a
    rw [Memory.withdrawn] at hcell
    cases hc : m.vertices.cell a with
    | none => simp [hcell, hc]
    | some c =>
      rw [hc, Option.bind_some] at hcell
      by_cases hdead : a ∈ rs ∧ c.owners ≤ 1
      · rw [if_pos hdead] at hcell
        simp [hcell, hdead]
      · rw [if_neg hdead] at hcell
        rw [hdeg (by simp [Memory.Live, Memory.vertex, SharedHeap.value, hcell]), hcell]
        by_cases h1 : a ∈ rs
        · have h2 : a ∉ rs' := fun h2 => hd a h2 h1
          have howners : ¬ c.owners ≤ 1 := fun hle => hdead ⟨h1, hle⟩
          simp [h1, h2, howners, inDegree_append, Nat.sub_sub]
        · simp [h1, inDegree_append, Nat.sub_sub]
  next := h'.next.trans h.next
  wrapped := h'.wrapped.trans h.wrapped

end Withdrawn

namespace DAG

/-- `remove_vertex_by_uuid`, one identifier after the other. -/
def removeEachByUuid (this : DAG) : List UUID → Prog σ π (Bool × DAG)
  | [] => pure (true, this)
  | id :: ids => do
    let (removed, g) ← this.removeVertexByUuid id
    let (rest, g) ← g.removeEachByUuid ids
    pure (removed && rest, g)

def without (g : DAG) (rs : List Addr) : DAG := { g with graph := g.graph.filter fun a => !decide (a ∈ rs) }

lemma mem_without : a ∈ (g.without rs).graph ↔ a ∈ g.graph ∧ a ∉ rs := by
  simp [without, List.mem_filter]

lemma without_without : (g.without rs).without rs' = g.without (rs ++ rs') := by
  simp only [without, mk.injEq, and_true, List.filter_filter]
  apply List.filter_congr
  intro a _
  simp [Bool.and_comm]

lemma removeVertexByUuid_withdraws (hg : g.WellFormed m) (hn : (rs ++ [a]).Nodup) (hrs : rs ++ [a] ⊆ g.graph)
    (hu : m.uuid a = some u) (h : Withdrawn m rs m') :
    ∃ m'', Returns ((g.without rs).removeVertexByUuid u) m' (true, g.without (rs ++ [a])) m'' ∧
      Withdrawn m (rs ++ [a]) m'' := by
  have hag : a ∈ g.graph := hrs (List.mem_append_right _ (List.mem_singleton_self a))
  have har : a ∉ rs := fun har => (List.nodup_append.mp hn).2.2 a har a (List.mem_singleton_self a) rfl
  have ho : (g.without rs).Owned m' := by
    refine ⟨hg.nodup.filter _, fun b hb => ?_⟩
    obtain ⟨hbg, hbr⟩ := mem_without.mp hb
    exact (h.live hbr).mpr (hg.live b hbg)
  have hfound : ∀ b ∈ (g.without rs).graph, decide (m'.uuid b = some u) = decide (b ∈ [a]) := by
    intro b hb
    obtain ⟨hbg, hbr⟩ := mem_without.mp hb
    rw [decide_eq_decide, h.uuid hbr, List.mem_singleton]
    constructor
    · exact fun hbu => hg.uuids b hbg a hag (hbu.trans hu.symm)
    · rintro rfl
      exact hu
  have hone : (g.without rs).graph.filter (fun b => m'.uuid b = some u) = [a] := by
    rw [List.filter_congr hfound]
    simp only [List.mem_singleton, List.filter_eq, List.count_eq_one_of_mem ho.nodup (mem_without.mpr ⟨hag, har⟩)]
    rfl
  have hkept : { g.without rs with graph := (g.without rs).graph.filter fun b => !decide (m'.uuid b = some u) } =
      g.without (rs ++ [a]) := by
    rw [← without_without, List.filter_congr fun b hb => congrArg not (hfound b hb)]
    rfl
  have hdistinct : (g.without rs).DistinctUuids m' := by
    intro b hb c hc hbc
    obtain ⟨hbg, hbr⟩ := mem_without.mp hb
    obtain ⟨hcg, hcr⟩ := mem_without.mp hc
    rw [h.uuid hbr, h.uuid hcr] at hbc
    exact hg.uuids b hbg c hcg hbc
  obtain ⟨m₁, hr, hd, hown⟩ := removeVertexByUuid_returns ho hdistinct u
  rw [hone, hkept] at hr
  rw [hone] at hd
  have hle : ∀ c, inDegree [a] m'.targets c ≤ m'.count c := by
    intro c
    by_cases hc : m'.Live c
    · have htotal := hg.counted.inDegree_le hg.inside.closed hn hrs c
      rw [inDegree_append, inDegree_cons, inDegree_nil] at htotal
      rw [inDegree_cons, inDegree_nil, h.count hc, h.count_targets har hc]
      omega
    · have hnot : c ∉ m'.targets a := fun hct => hc (live_of_mem_targets hct)
      simp [List.count_eq_zero.mpr hnot]
  exact ⟨_, hr, h.trans (hd.withdrawn (List.nodup_singleton a) hown hle) (by simpa using har)⟩

lemma removeEachByUuid_withdraws (hg : g.WellFormed m) {rest : List Addr} (hn : (rs ++ rest).Nodup)
    (hrs : rs ++ rest ⊆ g.graph) (h : Withdrawn m rs m') :
    ∃ m'', Returns ((g.without rs).removeEachByUuid (rest.filterMap m.uuid)) m' (true, g.without (rs ++ rest)) m'' ∧
      Withdrawn m (rs ++ rest) m'' := by
  induction rest generalizing rs m' with
  | nil => exact ⟨m', by simp [removeEachByUuid], by simpa using h⟩
  | cons a rest ih =>
    rw [List.append_cons] at hn hrs ⊢
    obtain ⟨v, hv⟩ := Memory.live_iff.mp (hg.live a (hrs (by simp)))
    obtain ⟨m₁, hr₁, h₁⟩ := removeVertexByUuid_withdraws hg (hn.sublist (List.sublist_append_left _ _))
      (fun b hb => hrs (List.mem_append_left _ hb)) (uuid_of_vertex hv) h
    obtain ⟨m₂, hr₂, h₂⟩ := ih hn hrs h₁
    refine ⟨m₂, ?_, h₂⟩
    rw [List.filterMap_cons_some (uuid_of_vertex hv)]
    simp only [removeEachByUuid, returns_bind, returns_pure]
    exact ⟨_, m₁, hr₁, _, m₂, hr₂, rfl, rfl⟩

lemma without_filter (p : Addr → Bool) :
    g.without (g.graph.filter p) = { g with graph := g.graph.filter fun a => !p a } := by
  rw [without, filter_notMem_filter]

lemma counted_withdrawn (hg : g.WellFormed m) {p : Addr → Bool} (h : Withdrawn m (g.graph.filter p) m') :
    Counted { g with graph := g.graph.filter fun a => !p a } m' := by
  have hmem : ∀ a ∈ g.graph.filter (fun a => !p a), a ∈ g.graph ∧ a ∉ g.graph.filter p := by
    intro a ha
    rwa [← mem_without, without_filter]
  intro c hc
  obtain ⟨hcg, hcr⟩ := hmem c hc
  have hlive : m'.Live c := (h.live hcr).mpr (hg.live c hcg)
  have hrest : inDegree (g.graph.filter fun a => !p a) m'.targets c =
      inDegree (g.graph.filter fun a => !p a) m.targets c :=
    inDegree_congr_count fun a ha => h.count_targets (hmem a ha).2 hlive
  have hall := inDegree_partition p g.graph m.targets c
  rw [h.count hlive, hg.counted c hcg, hrest]
  omega

theorem removeAllVertexWithLabel_class (hg : g.WellFormed m) (hh : g.Held m) (l : String) :
    ∃ removed m', Returns (g.removeAllVertexWithLabel l) m
        (removed, { g with graph := g.graph.filter fun a => !HasLabel m l a }) m' ∧
      (removed = true ↔ ∃ a ∈ g.graph, HasLabel m l a = true) ∧
      Counted { g with graph := g.graph.filter fun a => !HasLabel m l a } m' ∧
      ∀ rs : List Addr, rs.Perm (g.graph.filter (HasLabel m l)) → ∃ m'',
        Returns (g.removeEachByUuid (rs.filterMap m.uuid)) m
          (true, { g with graph := g.graph.filter fun a => !HasLabel m l a }) m'' ∧
        m''.vertices = m'.vertices ∧ m''.wrapped = m'.wrapped := by
  have hn : (g.graph.filter (HasLabel m l)).Nodup := hg.nodup.filter _
  obtain ⟨m₁, hr, hd, hown⟩ := removeAllVertexWithLabel_detaches hg.toOwned hg.uuids hh l
  have h := hd.withdrawn hn hown (hg.counted.inDegree_le hg.inside.closed hn (List.filter_subset_self _))
  refine ⟨_, _, hr, by simp, counted_withdrawn hg h, fun rs hp => ?_⟩
  have hnodup : ([] ++ rs).Nodup := hp.nodup_iff.mpr hn
  obtain ⟨m₂, hr₂, h₂⟩ := removeEachByUuid_withdraws hg hnodup
    (fun a ha => (List.mem_filter.mp (hp.mem_iff.mp ha)).1) (Withdrawn.refl m)
  refine ⟨m₂, ?_, ?_, h₂.wrapped.trans h.wrapped.symm⟩
  · have hstart : g.without [] = g := by simp [without]
    have hend : g.without ([] ++ rs) = { g with graph := g.graph.filter fun a => !HasLabel m l a } := by
      rw [← without_filter, List.nil_append]
      simp only [without, hp.mem_iff]
    rwa [hstart, hend] at hr₂
  · apply SharedHeap.eq_of_cells
    · intro a
      rw [h₂.cell, h.cell, List.nil_append, Memory.withdrawn_perm hp]
    · exact h₂.next.trans h.next.symm

theorem removeAllVertexWithLabel_class_sample :
    ∃ removed m', Returns (Sample.dag.removeAllVertexWithLabel "vertex") Sample.memory
        (removed, { Sample.dag with graph := Sample.dag.graph.filter fun a => !HasLabel Sample.memory "vertex" a }) m' ∧
      (removed = true ↔ ∃ a ∈ Sample.dag.graph, HasLabel Sample.memory "vertex" a = true) ∧
      Counted { Sample.dag with graph := Sample.dag.graph.filter fun a => !HasLabel Sample.memory "vertex" a } m' ∧
      ∀ rs : List Addr, rs.Perm (Sample.dag.graph.filter (HasLabel Sample.memory "vertex")) → ∃ m'',
        Returns (Sample.dag.removeEachByUuid (rs.filterMap Sample.memory.uuid)) Sample.memory
          (true, { Sample.dag with graph := Sample.dag.graph.filter fun a => !HasLabel Sample.memory "vertex" a }) m'' ∧
        m''.vertices = m'.vertices ∧ m''.wrapped = m'.wrapped :=
  removeAllVertexWithLabel_class Sample.wellFormed (by decide : ∀ a ∈ Sample.dag.graph, 0 < Sample.memory.vertices.owners a)
    "vertex"

end DAG

end DagScheduler.Graphs

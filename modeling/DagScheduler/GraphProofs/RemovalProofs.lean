import DagScheduler.GraphProofs.CloneProofs

/-! Removing vertices: the edges of what is removed are taken off the counters of their targets.
Nobody looks for the edges that point at it. -/

namespace DagScheduler.Graphs

open Library Library.Programs Library.Digraphs

variable {σ π : Type} {m m' m'' : Memory σ π} {g g' : DAG} {a c o : Addr} {v : DAGVertex σ π}
  {rs rs' : List Addr}

structure Detached (m : Memory σ π) (rs : List Addr) (m' : Memory σ π) : Prop where
  vertex : ∀ a, a ∉ rs → (∀ r ∈ rs, a ∉ m.targets r) → m'.vertex a = m.vertex a
  core : ∀ a, (m'.vertex a).map DAGVertex.core = (m.vertex a).map DAGVertex.core
  edges : ∀ a, m'.edges a = if a ∈ rs then [] else m.edges a
  counts : (∀ c, inDegree rs m.targets c ≤ m.count c) →
    m'.wrapped = m.wrapped ∧ ∀ c, m'.count c = m.count c - inDegree rs m.targets c
  next : m'.vertices.next = m.vertices.next

/-- What is left after the vertices of `rs`, all of them of `g`, were detached and died. -/
structure Removal (g : DAG) (m : Memory σ π) (rs : List Addr) (m' : Memory σ π) : Prop where
  dead : ∀ a ∈ rs, m'.vertices.cell a = none
  cell : ∀ a, a ∉ rs → (∀ r ∈ rs, a ∉ m.targets r) → m'.vertices.cell a = m.vertices.cell a
  core : ∀ a, a ∉ rs → (m'.vertex a).map DAGVertex.core = (m.vertex a).map DAGVertex.core
  edges : ∀ a, a ∉ rs → m'.edges a = m.edges a
  owners : ∀ a, a ∉ rs → m'.vertices.owners a = m.vertices.owners a
  counts : Closed g.graph m.targets → (∀ c, inDegree rs m.targets c ≤ m.count c) →
    m'.wrapped = m.wrapped ∧ ∀ c, c ∉ rs → m'.count c = m.count c - inDegree rs m.targets c
  next : m'.vertices.next = m.vertices.next

lemma Removal.live {rs : List Addr} (hr : Removal g m rs m') : m'.Live a ↔ m.Live a ∧ a ∉ rs := by
  by_cases ha : a ∈ rs
  · simp [Memory.Live, Memory.vertex, SharedHeap.value, hr.dead a ha, ha]
  · have hc := congrArg Option.isSome (hr.core a ha)
    simp only [Option.isSome_map] at hc
    simp [Memory.Live, hc, ha]

lemma Removal.targets {rs : List Addr} (hr : Removal g m rs m') (ha : a ∉ rs) :
    m'.targets a = (m.targets a).filter fun c => !decide (c ∈ rs) := by
  rw [Memory.targets, hr.edges a ha, Memory.targets, List.filter_filterMap]
  apply List.filterMap_congr
  intro e _
  apply Option.ext
  intro c
  rw [connection_eq_some, hr.live, Option.filter_eq_some_iff, connection_eq_some]
  simp [and_assoc]

namespace Detached

lemma refl (m : Memory σ π) : Detached m [] m where
  vertex _ _ _ := rfl
  core _ := rfl
  edges a := by simp
  counts _ := ⟨rfl, fun c => by simp⟩
  next := rfl

lemma isSome (h : Detached m rs m') (a : Addr) : (m'.vertex a).isSome = (m.vertex a).isSome := by
  have := congrArg Option.isSome (h.core a)
  simpa using this

lemma live (h : Detached m rs m') (a : Addr) : m'.Live a ↔ m.Live a := by
  simp only [Memory.Live, h.isSome]

lemma uuid (h : Detached m rs m') (a : Addr) : m'.uuid a = m.uuid a := uuid_of_core (h.core a)

lemma connection (h : Detached m rs m') (e : DAGEdge) : m'.connection e = m.connection e := by
  simp only [Memory.connection, h.isSome]

lemma targets (h : Detached m rs m') (a : Addr) :
    m'.targets a = if a ∈ rs then [] else m.targets a := by
  rw [Memory.targets, h.edges, funext h.connection]
  split_ifs
  · rfl
  · rfl

lemma trans (h : Detached m rs m') (h' : Detached m' rs' m'') (hd : ∀ a ∈ rs', a ∉ rs) :
    Detached m (rs ++ rs') m'' where
  vertex a ha ht := by
    simp only [List.mem_append, not_or] at ha
    have ht' : ∀ r ∈ rs', a ∉ m'.targets r := by
      intro r hr
      rw [h.targets, if_neg (hd r hr)]
      exact ht r (List.mem_append_right _ hr)
    rw [h'.vertex a ha.2 ht', h.vertex a ha.1 (fun r hr => ht r (List.mem_append_left _ hr))]
  core a := (h'.core a).trans (h.core a)
  edges a := by
    rw [h'.edges, h.edges]
    by_cases h1 : a ∈ rs <;> by_cases h2 : a ∈ rs' <;> simp [h1, h2]
  counts hle := by
    have hdeg : ∀ c, inDegree rs' m'.targets c = inDegree rs' m.targets c := fun c =>
      inDegree_congr (fun r hr => by rw [h.targets, if_neg (hd r hr)]) c
    simp only [inDegree_append] at hle
    obtain ⟨hw, hc⟩ := h.counts (fun c => (Nat.le_add_right _ _).trans (hle c))
    have hle' : ∀ c, inDegree rs' m'.targets c ≤ m'.count c := by
      intro c
      have := hle c
      rw [hdeg, hc]
      omega
    obtain ⟨hw', hc'⟩ := h'.counts hle'
    refine ⟨hw'.trans hw, fun c => ?_⟩
    rw [hc', hc, hdeg, inDegree_append]
    omega
  next := h'.next.trans h.next

lemma of_vertex_eq (h : Detached m rs m') (hv : ∀ a, m''.vertex a = m'.vertex a)
    (hw : m''.wrapped = m'.wrapped) (hn : m''.vertices.next = m'.vertices.next) :
    Detached m rs m'' where
  vertex a ha ht := (hv a).trans (h.vertex a ha ht)
  core a := by rw [hv, h.core]
  edges a := by rw [← h.edges, Memory.edges, hv, Memory.edges]
  counts hle := by
    obtain ⟨hw', hc⟩ := h.counts hle
    refine ⟨hw.trans hw', fun c => ?_⟩
    rw [← hc, Memory.count, hv, Memory.count]
  next := hn.trans h.next

lemma release (h : Detached m rs m') (hn : rs.Nodup)
    (hown : ∀ a, m'.vertices.owners a = m.vertices.owners a)
    (hsole : ∀ a ∈ rs, m.vertices.owners a = 1) (g : DAG) : Removal g m rs (m'.release rs) := by
  have hcell : ∀ a, a ∉ rs → (m'.release rs).vertices.cell a = m'.vertices.cell a := fun a ha =>
    m'.vertices.cell_releaseAll_of_notMem ha
  have hvertex : ∀ a, a ∉ rs → (m'.release rs).vertex a = m'.vertex a := fun a ha =>
    SharedHeap.value_of_cell_eq (hcell a ha)
  refine ⟨?_, ?_, ?_, ?_, ?_, ?_, ?_⟩
  · exact fun a ha => m'.vertices.cell_releaseAll_last hn ha ((hown a).trans (hsole a ha)).le
  · intro a ha ht
    rw [hcell a ha]
    exact SharedHeap.cell_eq_of_value _ _ (h.vertex a ha ht) (hown a)
  · exact fun a ha => by rw [hvertex a ha, h.core]
  · intro a ha
    have he := h.edges a
    rw [if_neg ha] at he
    rw [Memory.edges, hvertex a ha]
    exact he
  · exact fun a ha => (SharedHeap.owners_of_cell_eq (hcell a ha)).trans (hown a)
  · intro _ hle
    obtain ⟨hw, hc⟩ := h.counts hle
    refine ⟨hw, fun c hcr => ?_⟩
    rw [Memory.count, hvertex c hcr]
    exact hc c
  · exact (m'.vertices.next_releaseAll rs).trans h.next

end Detached

lemma subAll_returns (es : List DAGEdge) : ∃ m', Returns (es.forM fun e => do
      match ← lock e.connection with
      | some c => subIncommingEdge c
      | none => pure ()) m () m' ∧
    Frame (· ∈ es.filterMap m.connection) m m' ∧ m'.edges = m.edges ∧
    ((∀ c, (es.filterMap m.connection).count c ≤ m.count c) →
      m'.wrapped = m.wrapped ∧ ∀ c, m'.count c = m.count c - (es.filterMap m.connection).count c) := by
  induction es generalizing m with
  | nil => exact ⟨m, by simp, Frame.refl _ m, rfl, fun _ => ⟨rfl, by simp⟩⟩
  | cons e es ih =>
    cases hc : m.connection e with
    | none =>
      obtain ⟨m', hr, hf, he, hcount⟩ := ih (m := m)
      refine ⟨m', ?_, by simpa [hc] using hf, he, by simpa [hc] using hcount⟩
      exact returns_forM_cons.mpr ⟨m, returns_bind.mpr ⟨none, m, returns_lock_edge.mpr ⟨hc.symm, rfl⟩, by simp⟩, hr⟩
    | some c =>
      obtain ⟨v, hv⟩ := Memory.live_iff.mp (connection_eq_some.mp hc).2
      let m₁ := m.sub c v.incommingEdgeCount
      have hf₁ : Frame (· = c) m m₁ := Frame.sub m c _
      obtain ⟨m', hr, hf, he, hcount⟩ := ih (m := m₁)
      rw [funext hf₁.connection] at hf hcount
      refine ⟨m', ?_, ?_, ?_, ?_⟩
      · exact returns_forM_cons.mpr ⟨m₁, returns_bind.mpr ⟨some c, m,
          returns_lock_edge.mpr ⟨hc.symm, rfl⟩, returns_subIncommingEdge.mpr ⟨v, hv, rfl⟩⟩, hr⟩
      · rw [List.filterMap_cons_some hc]
        exact (hf₁.mono (fun a ha => by simp [ha])).trans (hf.mono (fun a ha => List.mem_cons_of_mem _ ha))
      · rw [he]
        funext b
        exact edges_sub _
      · rw [List.filterMap_cons_some hc]
        intro hle
        have hpos : 0 < m.count c := by
          have := hle c
          rw [List.count_cons_self] at this
          omega
        have hne : v.incommingEdgeCount ≠ 0 := by
          have := count_of_vertex hv
          omega
        have hcount₁ := count_sub v.incommingEdgeCount (Memory.live_of_vertex hv) hpos
        have hle₁ : ∀ b, (es.filterMap m.connection).count b ≤ m₁.count b := by
          intro b
          have hb := hle b
          rw [hcount₁]
          by_cases hbc : b = c
          · subst hbc
            rw [List.count_cons_self] at hb
            rw [Function.update_self]
            omega
          · rw [List.count_cons_of_ne (Ne.symm hbc)] at hb
            rwa [Function.update_of_ne hbc]
        obtain ⟨hw, hc'⟩ := hcount hle₁
        refine ⟨hw.trans (by simp [m₁, Memory.sub, Memory.modifyVertex, hne]), fun b => ?_⟩
        rw [hc', hcount₁]
        by_cases hbc : b = c
        · subst hbc
          rw [List.count_cons_self, Function.update_self]
          omega
        · rw [List.count_cons_of_ne (Ne.symm hbc), Function.update_of_ne hbc]

lemma detach_returns (ho : m.Live o) : ∃ m', Returns (DAG.detach o) m () m' ∧ Detached m [o] m' ∧
    ∀ a, m'.vertices.owners a = m.vertices.owners a := by
  obtain ⟨v, hv⟩ := Memory.live_iff.mp ho
  obtain ⟨m₁, hr, hf, he, hcount⟩ := subAll_returns (m := m) v.edges
  have htargets : v.edges.filterMap m.connection = m.targets o := by
    rw [Memory.targets, edges_of_vertex hv]
  rw [htargets] at hf hcount
  let m₂ := m₁.modifyVertex o fun v => { v with edges := [] }
  have hf₂ : Frame (· = o) m₁ m₂ := Frame.modifyVertex m₁ o (fun _ => rfl)
  have hfo : Frame (fun a => a = o ∨ a ∈ m.targets o) m m₂ :=
    (hf.mono (fun _ => Or.inr)).trans (hf₂.mono (fun _ => Or.inl))
  refine ⟨m₂, ?_, ?_, hfo.owners⟩
  · simp only [DAG.detach, returns_bind, returns_deref, DAGVertex.clearEdges, returns_modifyVertex]
    exact ⟨v, m, ⟨hv, rfl⟩, (), m₁, hr, rfl⟩
  · refine ⟨?_, hfo.core, ?_, ?_, hfo.next⟩
    · intro a ha ht
      have hao : a ≠ o := by simpa using ha
      exact hfo.vertex (by simpa [hao] using ht o List.mem_cons_self)
    · intro a
      by_cases hao : a = o
      · subst hao
        obtain ⟨v₁, hv₁⟩ := Memory.live_iff.mp ((hf.live a).mpr ho)
        rw [edges_modifyEdges_self (fun _ => []) hv₁]
        simp
      · rw [edges_modifyVertex_ne _ hao, he]
        simp [hao]
    · intro hle
      simp only [inDegree_cons, inDegree_nil, Nat.add_zero] at hle ⊢
      obtain ⟨hw, hc⟩ := hcount hle
      refine ⟨hw, fun c => ?_⟩
      rw [count_modifyEdges (fun _ => []), hc]

namespace DAG

section Erasing

variable {pred found : Addr → Prog σ π Bool} {as l s : List Addr} {slots : List (Option Addr)} {b : Addr}
  {res : List Addr × List (Option Addr)}

lemma detachIf_passes (h : Returns (found o) m false m) : Returns (detachIf found o) m false m := by
  simp only [detachIf, returns_bind]
  exact ⟨false, m, h, by simp⟩

lemma detachIf_detaches (h : Returns (found o) m true m) (hd : Returns (detach o) m () m') :
    Returns (detachIf found o) m true m' := by
  simp only [detachIf, returns_bind]
  refine ⟨true, m, h, ?_⟩
  rw [if_pos rfl]
  exact returns_bind.mpr ⟨(), m', hd, returns_pure.mpr ⟨rfl, rfl⟩⟩

/-- Nothing is released as long as the first slot to erase, if there is one, holds nothing. -/
lemma removeIf_keeps (hs : Returns (moveOver slots) m slots m) (h : ∀ o ∈ as, Returns (pred o) m false m) :
    Returns (removeIf pred as slots) m (as, slots) m := by
  induction as with
  | nil => simp [removeIf]
  | cons o as ih =>
    have hrest := ih fun c hc => h c (List.mem_cons_of_mem _ hc)
    simp only [removeIf, returns_bind]
    refine ⟨false, m, h o List.mem_cons_self, ?_⟩
    simp only [Bool.false_eq_true, if_false, returns_bind]
    exact ⟨slots, m, hs, (as, slots), m, hrest, by simp⟩

lemma removeIf_passed (h : Returns (pred o) m false m) (hs : Returns (moveOver slots) m slots m'') :
    Returns (removeIf pred (o :: as) slots) m res m' ↔
      ∃ r, Returns (removeIf pred as slots) m'' r m' ∧ res = (o :: r.1, r.2) := by
  simp only [removeIf, returns_bind, h.iff, and_assoc, exists_and_left, exists_eq_left, Bool.false_eq_true, if_false,
    hs.iff, returns_pure]
  constructor
  · rintro ⟨r, m₁, hr, he, rfl⟩
    exact ⟨r, hr, he⟩
  · rintro ⟨r, hr, he⟩
    exact ⟨r, m', hr, he, rfl⟩

lemma removeIf_append (h : ∀ o ∈ l, Returns (pred o) m false m) :
    Returns (removeIf pred (l ++ as) []) m res m' ↔
      ∃ r, Returns (removeIf pred as []) m r m' ∧ res = (l ++ r.1, r.2) := by
  induction l generalizing res with
  | nil => simp
  | cons o l ih =>
    have hnone : Returns (moveOver []) m [] m := by simp [moveOver]
    rw [List.cons_append, removeIf_passed (h o List.mem_cons_self) hnone]
    constructor
    · rintro ⟨r, hr, rfl⟩
      obtain ⟨r', hr', rfl⟩ := (ih fun c hc => h c (List.mem_cons_of_mem _ hc)).mp hr
      exact ⟨r', hr', rfl⟩
    · rintro ⟨r, hr, rfl⟩
      exact ⟨_, (ih fun c hc => h c (List.mem_cons_of_mem _ hc)).mpr ⟨r, hr, rfl⟩, rfl⟩

lemma removeIf_found (h : Returns (pred a) m true m'') :
    Returns (removeIf pred (a :: as) []) m res m' ↔ Returns (removeIf pred as [some a]) m'' res m' := by
  simp only [removeIf, returns_bind, h.iff, and_assoc, exists_and_left, exists_eq_left, if_true, List.nil_append]

/-- The element after the one that was found takes its slot, and the graph's pointer to it is gone. -/
lemma removeIf_moved (h : Returns (pred b) m false m) : Returns (removeIf pred (b :: as) [some a]) m res m' ↔
    ∃ r, Returns (removeIf pred as [none]) (m.release [a]) r m' ∧ res = (b :: r.1, r.2) := by
  have hmove : Returns (moveOver [some a]) m [none] (m.release [a]) := by
    simp only [moveOver, returns_bind, returns_modify, returns_pure]
    exact ⟨(), _, rfl, rfl, rfl⟩
  simp only [removeIf, returns_bind, h.iff, and_assoc, exists_and_left, exists_eq_left, Bool.false_eq_true, if_false,
    hmove.iff, returns_pure]
  constructor
  · rintro ⟨r, m₁, hr, he, rfl⟩
    exact ⟨r, hr, he⟩
  · rintro ⟨r, hr, he⟩
    exact ⟨r, m', hr, he, rfl⟩

lemma eraseIf_none (h : ∀ o ∈ g.graph, Returns (found o) m false m) : Returns (g.eraseIf found) m (false, g) m := by
  have hkeeps : Returns (removeIf (detachIf found) g.graph []) m (g.graph, []) m :=
    removeIf_keeps (by simp [moveOver]) fun o ho => detachIf_passes (h o ho)
  simp only [eraseIf, returns_bind, returns_modify, returns_pure]
  exact ⟨_, m, hkeeps, (), m, rfl, rfl, rfl⟩

/-- One vertex is found. The one after it is looked at before it is released, the others after that. -/
lemma eraseIf_one (hg : g.graph = l ++ a :: s) (hl : ∀ o ∈ l, Returns (found o) m false m)
    (ha : Returns (found a) m true m) (hd : Returns (detach a) m () m')
    (hs : ∀ o ∈ s, Returns (found o) m' false m')
    (ht : ∀ o ∈ s.tail, Returns (found o) (m'.release [a]) false (m'.release [a])) :
    Returns (g.eraseIf found) m (true, { g with graph := l ++ s }) (m'.release [a]) := by
  have hprefix : ∀ o ∈ l, Returns (detachIf found o) m false m := fun o ho => detachIf_passes (hl o ho)
  have hfound : Returns (detachIf found a) m true m' := detachIf_detaches ha hd
  simp only [eraseIf, returns_bind, returns_modify, returns_pure, hg, removeIf_append hprefix, removeIf_found hfound]
  cases s with
  | nil => exact ⟨_, m', ⟨([], [some a]), by simp [removeIf], rfl⟩, (), _, rfl, rfl, rfl⟩
  | cons b s =>
    have hnext : Returns (detachIf found b) m' false m' := detachIf_passes (hs b List.mem_cons_self)
    have hmove : Returns (moveOver [none]) (m'.release [a]) [none] (m'.release [a]) := by
      simp only [moveOver, returns_bind, returns_modify, returns_pure]
      exact ⟨(), _, rfl, rfl, rfl⟩
    have hrest : Returns (removeIf (detachIf found) s [none]) (m'.release [a]) (s, [none]) (m'.release [a]) :=
      removeIf_keeps hmove fun o ho => detachIf_passes (ht o ho)
    exact ⟨_, _, ⟨_, (removeIf_moved hnext).mpr ⟨_, hrest, rfl⟩, rfl⟩, (), _, rfl, rfl, rfl⟩

/-- What is looked at after the vertex that was found is released. -/
lemma eraseIf_reads {c : Addr} {x : Bool × DAG} (hg : g.graph = l ++ a :: b :: c :: s)
    (hl : ∀ o ∈ l, Returns (found o) m false m) (ha : Returns (found a) m true m) (hd : Returns (detach a) m () m')
    (hb : Returns (found b) m' false m') (hr : Returns (g.eraseIf found) m x m'') :
    ∃ y t, Returns (found c) (m'.release [a]) y t := by
  have hprefix : ∀ o ∈ l, Returns (detachIf found o) m false m := fun o ho => detachIf_passes (hl o ho)
  simp only [eraseIf, returns_bind, hg, removeIf_append hprefix, removeIf_found (detachIf_detaches ha hd),
    removeIf_moved (detachIf_passes hb)] at hr
  obtain ⟨_, _, ⟨_, ⟨r, hr, _⟩, _⟩, _⟩ := hr
  simp only [removeIf, returns_bind] at hr
  obtain ⟨_, _, hc, _⟩ := hr
  simp only [detachIf, returns_bind] at hc
  obtain ⟨y, t, hc, -⟩ := hc
  exact ⟨y, t, hc⟩

end Erasing

/-- `found` says what `p` does: at first, once an element that `p` holds of is detached, and, for the
elements that come later than the next, once that one is released. -/
structure Decides (V : List Addr) (m : Memory σ π) (p : Addr → Bool) (found : Addr → Prog σ π Bool) : Prop where
  before : ∀ o ∈ V, Returns (found o) m (p o) m
  detached : ∀ l a s m', V = l ++ a :: s → p a = true → Detached m [a] m' →
    (∀ b, m'.vertices.owners b = m.vertices.owners b) → ∀ o ∈ s, Returns (found o) m' (p o) m'
  released : ∀ l a s m', V = l ++ a :: s → p a = true → Detached m [a] m' →
    (∀ b, m'.vertices.owners b = m.vertices.owners b) →
      ∀ o ∈ s.tail, Returns (found o) (m'.release [a]) (p o) (m'.release [a])

/-- What is erased, and how, depends only on what the predicate says. -/
lemma eraseIf_returns (ho : g.Owned m) {p : Addr → Bool}
    (hone : ∀ a ∈ g.graph, ∀ b ∈ g.graph, p a = true → p b = true → a = b) :
    ∃ m', (∀ found, Decides g.graph m p found → Returns (g.eraseIf found) m
        (!(g.graph.filter p).isEmpty, { g with graph := g.graph.filter (fun a => !p a) })
        (m'.release (g.graph.filter p))) ∧
      Detached m (g.graph.filter p) m' ∧ ∀ a, m'.vertices.owners a = m.vertices.owners a := by
  by_cases hany : ∃ a ∈ g.graph, p a = true
  · obtain ⟨a, ha, hpa⟩ := hany
    obtain ⟨l, s, hg⟩ := List.append_of_mem ha
    have hnodup := hg ▸ ho.nodup
    obtain ⟨-, hnodup', hdis⟩ := List.nodup_append.mp hnodup
    have hl : ∀ o ∈ l, p o = false := by
      intro o hol
      refine Bool.eq_false_of_not_eq_true fun hpo => hdis o hol a List.mem_cons_self ?_
      exact hone o (hg ▸ List.mem_append_left _ hol) a ha hpo hpa
    have hs : ∀ o ∈ s, p o = false := by
      intro o hos
      refine Bool.eq_false_of_not_eq_true fun hpo => (List.nodup_cons.mp hnodup').1 ?_
      exact hone o (hg ▸ List.mem_append_right _ (List.mem_cons_of_mem _ hos)) a ha hpo hpa ▸ hos
    have hfilter : g.graph.filter p = [a] := by
      rw [hg, List.filter_append, List.filter_cons_of_pos hpa, List.filter_eq_nil_iff.mpr (by simpa using hl),
        List.filter_eq_nil_iff.mpr (by simpa using hs), List.nil_append]
    have hkept : g.graph.filter (fun a => !p a) = l ++ s := by
      rw [hg, List.filter_append, List.filter_cons_of_neg (by simp [hpa]), List.filter_eq_self.mpr (by simpa using hl),
        List.filter_eq_self.mpr (by simpa using hs)]
    obtain ⟨m', hr, hd, hown⟩ := detach_returns (ho.live a ha)
    refine ⟨m', fun found hfound => ?_, hfilter ▸ hd, hown⟩
    rw [hfilter, hkept]
    refine eraseIf_one hg ?_ (hpa ▸ hfound.before a ha) hr ?_ ?_
    · exact fun o hol => hl o hol ▸ hfound.before o (hg ▸ List.mem_append_left _ hol)
    · exact fun o hos => hs o hos ▸ hfound.detached l a s m' hg hpa hd hown o hos
    · exact fun o hos => hs o (List.mem_of_mem_tail hos) ▸ hfound.released l a s m' hg hpa hd hown o hos
  · have hnone : ∀ o ∈ g.graph, p o = false := fun o hog =>
      Bool.eq_false_of_not_eq_true fun hpo => hany ⟨o, hog, hpo⟩
    have hfilter : g.graph.filter p = [] := List.filter_eq_nil_iff.mpr fun o hog => by simp [hnone o hog]
    have hkept : g.graph.filter (fun a => !p a) = g.graph := List.filter_eq_self.mpr fun o hog => by simp [hnone o hog]
    refine ⟨m, fun found hfound => ?_, hfilter ▸ Detached.refl m, fun _ => rfl⟩
    rw [hfilter, hkept]
    exact eraseIf_none fun o hog => hnone o hog ▸ hfound.before o hog

lemma vertex_release_ne (h : o ≠ a) : (m.release [a]).vertex o = m.vertex o :=
  SharedHeap.value_of_cell_eq (m.vertices.cell_release_ne h)

lemma ne_of_mem_after {l s : List Addr} (hn : g.graph.Nodup) (hg : g.graph = l ++ a :: s) (ho : o ∈ s) : o ≠ a := by
  rintro rfl
  exact (List.nodup_cons.mp (List.nodup_append.mp (hg ▸ hn)).2.1).1 ho

lemma mem_of_mem_after {l s : List Addr} (hg : g.graph = l ++ a :: s) (ho : o ∈ s) : o ∈ g.graph :=
  hg ▸ List.mem_append_right _ (List.mem_cons_of_mem _ ho)

lemma decides_uuid (ho : g.Owned m) (id : UUID) :
    Decides g.graph m (fun a => m.uuid a = some id)
      (fun o => do pure ((← deref o).uuid.eq id)) := by
  have hcompare : ∀ (o : Addr) (m' : Memory σ π), o ∈ g.graph → m'.uuid o = m.uuid o →
      Returns (do pure ((← deref o).uuid.eq id)) m' (decide (m.uuid o = some id)) m' := by
    intro o m' hog hu
    obtain ⟨w, hw⟩ := Memory.live_iff.mp (ho.live o hog)
    obtain ⟨v, hv, huv⟩ := Option.map_eq_some_iff.mp (hu.trans (uuid_of_vertex hw))
    simp only [returns_bind, returns_deref, returns_pure]
    refine ⟨v, m', ⟨hv, rfl⟩, ?_, rfl⟩
    rw [uuid_of_vertex hw, ← huv, Bool.eq_iff_iff, UUID.eq_iff]
    simp
  constructor
  · exact fun o hog => hcompare o m hog rfl
  · exact fun l a s m' hg _ hd _ o hos => hcompare o m' (mem_of_mem_after hg hos) (hd.uuid o)
  · intro l a s m' hg _ hd _ o hos
    have hos' := List.mem_of_mem_tail hos
    refine hcompare o _ (mem_of_mem_after hg hos') ?_
    rw [← hd.uuid o, Memory.uuid, vertex_release_ne (ne_of_mem_after ho.nodup hg hos'), Memory.uuid]

lemma removeVertexByUuid_returns (ho : g.Owned m) (hu : g.DistinctUuids m) (id : UUID) :
    ∃ m', Returns (g.removeVertexByUuid id) m
        (!(g.graph.filter fun a => m.uuid a = some id).isEmpty,
          { g with graph := g.graph.filter fun a => !decide (m.uuid a = some id) })
        (m'.release (g.graph.filter fun a => m.uuid a = some id)) ∧
      Detached m (g.graph.filter fun a => m.uuid a = some id) m' ∧
      ∀ a, m'.vertices.owners a = m.vertices.owners a := by
  obtain ⟨m', hr, hd⟩ := eraseIf_returns ho (p := fun a => m.uuid a = some id) (by
    intro a ha b hb hua hub
    exact hu a ha b hb ((of_decide_eq_true hua).trans (of_decide_eq_true hub).symm))
  exact ⟨m', hr _ (decides_uuid ho id), hd⟩

def Matches (m : Memory σ π) (v : DAGVertex σ π) (a : Addr) : Bool := (m.vertex a).any fun w => w.eq v

lemma uuid_of_matches (h : Matches m v a = true) : m.uuid a = some v.uuid := by
  obtain ⟨w, hw, he⟩ := (Option.any_eq_true _ _).mp h
  rw [uuid_of_vertex hw, uuid_of_eq he]

lemma matches_self (hv : m.vertex a = some v) : Matches m v a = true := by
  simp [Matches, hv, v.eq_self]

lemma returns_read_detached {r : VertexRef σ π} (h : Detached m rs m') (hr : Returns r.read m v m) :
    ∃ v', Returns r.read m' v' m' ∧ v'.uuid = v.uuid ∧ (rs = [] → v' = v) := by
  cases r with
  | value w =>
    obtain ⟨rfl, -⟩ := returns_pure.mp hr
    exact ⟨v, returns_pure.mpr ⟨rfl, rfl⟩, rfl, fun _ => rfl⟩
  | object x =>
    obtain ⟨hv, -⟩ := returns_deref.mp hr
    obtain ⟨v', hv'⟩ := Memory.live_iff.mp ((h.live x).mpr (Memory.live_of_vertex hv))
    refine ⟨v', returns_deref.mpr ⟨hv', rfl⟩, ?_, ?_⟩
    · have hu := h.uuid x
      rw [uuid_of_vertex hv, uuid_of_vertex hv'] at hu
      exact Option.some.inj hu
    · rintro rfl
      rw [h.vertex x (by simp) (by simp), hv] at hv'
      exact (Option.some.inj hv').symm

/-- A vertex of `g` that is passed by reference has another owner than `g`, or nothing is left to be
compared with it once it is released. -/
def Outlives (g : DAG) (m : Memory σ π) : VertexRef σ π → Prop
  | .value _ => True
  | .object a => ∀ l s, g.graph = l ++ a :: s → 1 < m.vertices.owners a ∨ s.length ≤ 1

lemma Outlives.of_notMem (ha : a ∉ g.graph) : g.Outlives m (.object a) := by
  intro l s hg
  exact absurd (hg ▸ List.mem_append_right l List.mem_cons_self) ha

lemma returns_read_release {r : VertexRef σ π} (hr : Returns r.read m v m)
    (hkept : ∀ x, r = .object x → x ≠ a ∨ 1 < m.vertices.owners a) : Returns r.read (m.release [a]) v (m.release [a]) := by
  cases r with
  | value w =>
    obtain ⟨rfl, -⟩ := returns_pure.mp hr
    exact returns_pure.mpr ⟨rfl, rfl⟩
  | object x =>
    obtain ⟨hv, -⟩ := returns_deref.mp hr
    refine returns_deref.mpr ⟨?_, rfl⟩
    rcases hkept x rfl with hne | htwo
    · rw [vertex_release_ne hne, hv]
    · exact (m.vertices.value_release_shared htwo x).trans hv

lemma returns_compare {r : VertexRef σ π} {w : DAGVertex σ π} (hw : m.vertex o = some w) (hr : Returns r.read m v m) :
    Returns (do pure ((← deref o).eq (← r.read))) m (w.eq v) m := by
  simp only [returns_bind, returns_deref, returns_pure]
  exact ⟨w, m, ⟨hw, rfl⟩, v, m, hr, rfl, rfl⟩

lemma compare_before (ho : g.Owned m) {r : VertexRef σ π} (hr : Returns r.read m v m) (hog : o ∈ g.graph) :
    Returns (do pure ((← deref o).eq (← r.read))) m (Matches m v o) m := by
  obtain ⟨w, hw⟩ := Memory.live_iff.mp (ho.live o hog)
  simpa [Matches, hw] using returns_compare hw hr

/-- The match that was detached before has the same identifier as the reference. -/
lemma compare_detached (ho : g.Owned m) (hu : g.DistinctUuids m) {r : VertexRef σ π} (hr : Returns r.read m' v m')
    {u : DAGVertex σ π} (huv : v.uuid = u.uuid) (ha : a ∈ g.graph) (hmatch : Matches m u a = true) (hog : o ∈ g.graph)
    (hne : o ≠ a) (huo : m'.uuid o = m.uuid o) :
    Returns (do pure ((← deref o).eq (← r.read))) m' (Matches m u o) m' := by
  obtain ⟨x, hx⟩ := Memory.live_iff.mp (ho.live o hog)
  obtain ⟨w, hw, -⟩ := Option.map_eq_some_iff.mp (huo.trans (uuid_of_vertex hx))
  have hother : m.uuid o ≠ some u.uuid := fun he => hne (hu o hog a ha (he.trans (uuid_of_matches hmatch).symm))
  have h1 : Matches m u o = false := Bool.eq_false_of_not_eq_true fun h => hother (uuid_of_matches h)
  have h2 : w.eq v = false := Bool.eq_false_of_not_eq_true fun h => hother (by
    rw [← huo, uuid_of_vertex hw, uuid_of_eq h, huv])
  rw [h1, ← h2]
  exact returns_compare hw hr

lemma decides_matches (ho : g.Owned m) (hu : g.DistinctUuids m) {r : VertexRef σ π}
    (hr : Returns r.read m v m) (hkept : g.Outlives m r) :
    Decides g.graph m (Matches m v) (fun o => do pure ((← deref o).eq (← r.read))) := by
  constructor
  · exact fun o hog => compare_before ho hr hog
  · intro l a s m' hg hmatch hd _ o hos
    obtain ⟨v', hv', huv, -⟩ := returns_read_detached hd hr
    exact compare_detached ho hu hv' huv (hg ▸ List.mem_append_right _ List.mem_cons_self) hmatch
      (mem_of_mem_after hg hos) (ne_of_mem_after ho.nodup hg hos) (hd.uuid o)
  · intro l a s m' hg hmatch hd hown o hos
    have hos' := List.mem_of_mem_tail hos
    have hne := ne_of_mem_after ho.nodup hg hos'
    obtain ⟨v', hv', huv, -⟩ := returns_read_detached hd hr
    have hread : Returns r.read (m'.release [a]) v' (m'.release [a]) := by
      refine returns_read_release hv' fun x hx => ?_
      subst hx
      by_cases hxa : x = a
      · subst hxa
        refine .inr ((hown x).symm ▸ (hkept l s hg).resolve_right fun hle => ?_)
        have hpos := List.length_pos_of_mem hos
        rw [List.length_tail] at hpos
        omega
      · exact .inl hxa
    refine compare_detached ho hu hread huv (hg ▸ List.mem_append_right _ List.mem_cons_self) hmatch
      (mem_of_mem_after hg hos') hne ?_
    rw [← hd.uuid o, Memory.uuid, vertex_release_ne hne, Memory.uuid]

lemma one_match (hu : g.DistinctUuids m) :
    ∀ a ∈ g.graph, ∀ b ∈ g.graph, Matches m v a = true → Matches m v b = true → a = b :=
  fun a ha b hb hma hmb => hu a ha b hb ((uuid_of_matches hma).trans (uuid_of_matches hmb).symm)

lemma removeVertex_returns (ho : g.Owned m) (hu : g.DistinctUuids m) {r : VertexRef σ π}
    (hr : Returns r.read m v m) (hkept : g.Outlives m r) :
    ∃ m', Returns (g.removeVertex r) m
        (!(g.graph.filter (Matches m v)).isEmpty,
          { g with graph := g.graph.filter fun a => !Matches m v a })
        (m'.release (g.graph.filter (Matches m v))) ∧
      Detached m (g.graph.filter (Matches m v)) m' ∧ ∀ a, m'.vertices.owners a = m.vertices.owners a := by
  obtain ⟨m', hret, hd⟩ := eraseIf_returns ho (p := Matches m v) (one_match hu)
  exact ⟨m', hret _ (decides_matches ho hu hr hkept), hd⟩

lemma matches_eq (hu : g.DistinctUuids m) (ha : a ∈ g.graph) (hv : m.vertex a = some v) :
    ∀ b ∈ g.graph, Matches m v b = decide (b = a) := by
  intro b hb
  by_cases hba : b = a
  · subst hba
    simp [matches_self hv]
  · have hn : ¬ Matches m v b = true := fun h =>
      hba (hu b hb a ha ((uuid_of_matches h).trans (uuid_of_vertex hv).symm))
    simp [hba, hn]

lemma filter_matches (ho : g.Owned m) (hu : g.DistinctUuids m) (ha : a ∈ g.graph)
    (hv : m.vertex a = some v) : g.graph.filter (Matches m v) = [a] := by
  rw [List.filter_congr (matches_eq hu ha hv), List.filter_eq, List.count_eq_one_of_mem ho.nodup ha]
  rfl

/-- A reference to a vertex that dies before the last comparison: that comparison reads it. -/
lemma outlives_of_returns (ho : g.Owned m) (hu : g.DistinctUuids m) {r : VertexRef σ π} {x : Bool × DAG}
    (hr : Returns (g.removeVertex r) m x m') : g.Outlives m r := by
  cases r with
  | value w => trivial
  | object a =>
    intro l s hg
    by_contra hc
    obtain ⟨hsole, hlength⟩ := not_or.mp hc
    obtain ⟨b, c, s, rfl⟩ : ∃ b c s', s = b :: c :: s' := by
      match s, hlength with
      | b :: c :: s, _ => exact ⟨b, c, s, rfl⟩
      | [], h | [_], h => simp at h
    have ha : a ∈ g.graph := hg ▸ List.mem_append_right _ List.mem_cons_self
    obtain ⟨v, hv⟩ := Memory.live_iff.mp (ho.live a ha)
    have hread : Returns (VertexRef.object a).read m v m := returns_deref.mpr ⟨hv, rfl⟩
    have hfalse : ∀ o ∈ g.graph, o ≠ a → Matches m v o = false := by
      intro o hog hne
      rw [matches_eq hu ha hv o hog]
      exact decide_eq_false hne
    have hb : b ∈ b :: c :: s := List.mem_cons_self
    have hba := ne_of_mem_after ho.nodup hg hb
    obtain ⟨m₁, hdetach, hd, hown⟩ := detach_returns (ho.live a ha)
    obtain ⟨v', hv', huv, -⟩ := returns_read_detached hd hread
    have hl : ∀ o ∈ l, Returns (do pure ((← deref o).eq (← (VertexRef.object a).read))) m false m := by
      intro o hol
      have hog : o ∈ g.graph := hg ▸ List.mem_append_left _ hol
      have hne : o ≠ a := (List.nodup_append.mp (hg ▸ ho.nodup)).2.2 o hol a List.mem_cons_self
      exact hfalse o hog hne ▸ compare_before ho hread hog
    have hnext : Returns (do pure ((← deref b).eq (← (VertexRef.object a).read))) m₁ false m₁ :=
      hfalse b (mem_of_mem_after hg hb) hba ▸
        compare_detached ho hu hv' huv ha (matches_self hv) (mem_of_mem_after hg hb) hba (hd.uuid b)
    obtain ⟨y, t, hc⟩ := eraseIf_reads hg hl (matches_self hv ▸ compare_before ho hread ha) hdetach hnext hr
    have hdead : (m₁.release [a]).vertices.cell a = none :=
      m₁.vertices.cell_release_last (by rw [hown]; omega)
    simp only [returns_bind, VertexRef.read, returns_deref] at hc
    obtain ⟨_, _, ⟨_, rfl⟩, _, _, ⟨hva, _⟩, _⟩ := hc
    simp [Memory.vertex, SharedHeap.value, hdead] at hva

lemma filter_notMem_filter (p : Addr → Bool) (as : List Addr) :
    (as.filter fun a => !decide (a ∈ as.filter p)) = as.filter fun a => !p a := by
  apply List.filter_congr
  intro a ha
  simp [ha]

def HasLabel (m : Memory σ π) (l : String) (a : Addr) : Bool := (m.vertex a).any fun v => v.label == l

lemma withLabel_returns {l : String} {as : List Addr} (hlive : ∀ a ∈ as, m.Live a) :
    Returns (withLabel l as) m (as.filter (HasLabel m l)) m := by
  induction as with
  | nil => simp [withLabel]
  | cons a as ih =>
    obtain ⟨v, hv⟩ := Memory.live_iff.mp (hlive a List.mem_cons_self)
    have hrest := ih (fun b hb => hlive b (List.mem_cons_of_mem _ hb))
    simp only [withLabel, returns_bind, returns_deref]
    refine ⟨v, m, ⟨hv, rfl⟩, _, m, hrest, ?_⟩
    rw [List.filter_cons]
    by_cases hl : v.label = l <;> simp [HasLabel, hv, hl]

structure TakeInv (g : DAG) (m : Memory σ π) (gone rest : List Addr) (g' : DAG) (m' : Memory σ π) :
    Prop where
  graph : g' = { g with graph := g.graph.filter fun a => !decide (a ∈ gone) }
  detached : Detached m gone m'
  owners : ∀ a, m'.vertices.owners a = m.vertices.owners a + if a ∈ rest then 1 else 0

lemma TakeInv.start {found : List Addr} (hlive : ∀ a ∈ found, m.Live a) (hn : found.Nodup) :
    TakeInv g m [] found g (m.retain found) where
  graph := by simp
  detached := (Detached.refl m).of_vertex_eq (fun a => m.vertices.value_retainAll found a) rfl
    (m.vertices.next_retainAll found)
  owners := m.vertices.owners_retainAll hn hlive

lemma TakeInv.finish {found : List Addr} (h : TakeInv g m found [] g' m') (hn : found.Nodup)
    (hsole : ∀ a ∈ found, m.vertices.owners a = 1) : Removal g m found (m'.release found) :=
  h.detached.release hn (fun a => by simp [h.owners]) hsole g

lemma TakeInv.step {gone rest : List Addr} {g' : DAG} (h : TakeInv g m gone (a :: rest) g' m')
    (ho : g.Owned m) (hu : g.DistinctUuids m) (hheld : 0 < m.vertices.owners a) (ha : a ∈ g.graph)
    (hag : a ∉ gone) (har : a ∉ rest) :
    ∃ g'' m'', Returns (g'.removeVertex (VertexRef.object a)) m' (true, g'') m'' ∧
      TakeInv g m (gone ++ [a]) rest g'' m'' := by
  obtain ⟨rfl, hd, hown⟩ := h
  let g' : DAG := { g with graph := g.graph.filter fun a => !decide (a ∈ gone) }
  have hsub : ∀ b ∈ g'.graph, b ∈ g.graph := fun b hb => (List.mem_filter.mp hb).1
  have ho' : g'.Owned m' := ⟨ho.nodup.filter _, fun b hb => (hd.live b).mpr (ho.live b (hsub b hb))⟩
  have hu' : g'.DistinctUuids m' := by
    intro b hb c hc hbc
    rw [hd.uuid, hd.uuid] at hbc
    exact hu b (hsub b hb) c (hsub c hc) hbc
  have ha' : a ∈ g'.graph := List.mem_filter.mpr ⟨ha, by simp [hag]⟩
  obtain ⟨v, hv⟩ := Memory.live_iff.mp (ho'.live a ha')
  have hshared : 1 < m'.vertices.owners a := by
    rw [hown, if_pos List.mem_cons_self]
    omega
  obtain ⟨m₁, hr, hd₁, hown₁⟩ := removeVertex_returns ho' hu' (r := .object a) (returns_deref.mpr ⟨hv, rfl⟩)
    fun _ _ _ => .inl hshared
  rw [filter_matches ho' hu' ha' hv] at hr hd₁
  have htwo : 1 < m₁.vertices.owners a := (hown₁ a).symm ▸ hshared
  refine ⟨_, _, hr, ?_, ?_, ?_⟩
  · congr 1
    rw [List.filter_congr fun b hb => congrArg not (matches_eq hu' ha' hv b hb), List.filter_filter]
    apply List.filter_congr
    intro b _
    simp [Bool.and_comm]
  · have hdis : ∀ b ∈ [a], b ∉ gone := fun b hb => List.mem_singleton.mp hb ▸ hag
    exact (hd.trans hd₁ hdis).of_vertex_eq (fun b => m₁.vertices.value_release_shared htwo b) rfl rfl
  · intro b
    by_cases hba : b = a
    · subst hba
      have hrel : (m₁.release [b]).vertices.owners b = m₁.vertices.owners b - 1 :=
        m₁.vertices.owners_release_self htwo
      rw [hrel, hown₁, hown]
      simp [har]
    · have hrel : (m₁.release [a]).vertices.owners b = m₁.vertices.owners b :=
        SharedHeap.owners_of_cell_eq (m₁.vertices.cell_release_ne hba)
      rw [hrel, hown₁, hown]
      simp [hba]

lemma removeAllVertexWithLabel_detaches (ho : g.Owned m) (hu : g.DistinctUuids m) (hheld : g.Held m) (l : String) :
    ∃ m', Returns (g.removeAllVertexWithLabel l) m
        (!(g.graph.filter (HasLabel m l)).isEmpty, { g with graph := g.graph.filter fun a => !HasLabel m l a })
        (m'.release (g.graph.filter (HasLabel m l))) ∧
      Detached m (g.graph.filter (HasLabel m l)) m' ∧ ∀ a, m'.vertices.owners a = m.vertices.owners a := by
  let found := g.graph.filter (HasLabel m l)
  have hfound : ∀ a ∈ found, a ∈ g.graph := fun a ha => (List.mem_filter.mp ha).1
  have hnodup : found.Nodup := ho.nodup.filter _
  let I : List Addr → DAG → Memory σ π → Prop := fun rest g' m' =>
    ∃ gone, found = gone ++ rest ∧ TakeInv g m gone rest g' m'
  have hstart : I found g (m.retain found) :=
    ⟨[], rfl, .start (fun a ha => ho.live a (hfound a ha)) hnodup⟩
  have hstep : ∀ x xs g' m', I (x :: xs) g' m' → ∃ g'' m'',
      Returns (removeFound g' x) m' g'' m'' ∧ I xs g'' m'' := by
    rintro x xs g' m' ⟨gone, hgone, h⟩
    have hx : x ∈ g.graph := hfound x (by simp [hgone])
    have hd := hgone ▸ hnodup
    obtain ⟨g'', m'', hr, h'⟩ := h.step ho hu (hheld x hx) hx
      (fun hxg => (List.nodup_append.mp hd).2.2 x hxg x List.mem_cons_self rfl)
      (List.nodup_cons.mp (List.nodup_append.mp hd).2.1).1
    exact ⟨g'', m'', returns_bind.mpr ⟨(true, g''), m'', hr, by simp⟩, gone ++ [x], by simp [hgone], h'⟩
  obtain ⟨g', m', hr, gone, hgone, h⟩ := foldlM_returns I hstep hstart
  rw [List.append_nil] at hgone
  subst hgone
  refine ⟨m', ?_, h.detached, fun a => by simp [h.owners]⟩
  simp only [removeAllVertexWithLabel, returns_bind, returns_modify, returns_pure]
  refine ⟨found, m, withLabel_returns ho.live, (), _, rfl, g', m', hr, (), _, rfl, ?_, rfl⟩
  rw [h.graph, filter_notMem_filter]

lemma removeAllVertexWithLabel_returns (ho : g.Owned m) (hu : g.DistinctUuids m)
    (hsole : ∀ a ∈ g.graph, m.vertices.owners a = 1) (l : String) :
    ∃ m', Returns (g.removeAllVertexWithLabel l) m
        (!(g.graph.filter (HasLabel m l)).isEmpty, { g with graph := g.graph.filter fun a => !HasLabel m l a })
        m' ∧ Removal g m (g.graph.filter (HasLabel m l)) m' := by
  have hheld : g.Held m := by
    intro a ha
    rw [hsole a ha]
    exact Nat.one_pos
  obtain ⟨m', hr, hd, hown⟩ := removeAllVertexWithLabel_detaches ho hu hheld l
  have hrem := hd.release (ho.nodup.filter _) hown (fun a ha => hsole a (List.mem_filter.mp ha).1) g
  exact ⟨_, hr, hrem⟩

lemma reset_returns (hn : g.graph.Nodup) (hsole : ∀ a ∈ g.graph, m.vertices.owners a = 1) :
    Returns g.reset m { g with graph := [] } (m.release g.graph) ∧
      Removal g m g.graph (m.release g.graph) := by
  have hcell : ∀ a, a ∉ g.graph → (m.release g.graph).vertices.cell a = m.vertices.cell a := fun a ha =>
    m.vertices.cell_releaseAll_of_notMem ha
  have hvertex : ∀ a, a ∉ g.graph → (m.release g.graph).vertex a = m.vertex a := fun a ha =>
    SharedHeap.value_of_cell_eq (hcell a ha)
  refine ⟨?_, ?_, ?_, ?_, ?_, ?_, ?_, ?_⟩
  · simp only [reset, returns_bind, returns_modify]
    exact ⟨(), _, rfl, by simp⟩
  · exact fun a ha => m.vertices.cell_releaseAll_last hn ha (hsole a ha).le
  · exact fun a ha _ => hcell a ha
  · exact fun a ha => by rw [hvertex a ha]
  · exact fun a ha => by rw [Memory.edges, hvertex a ha, Memory.edges]
  · exact fun a ha => SharedHeap.owners_of_cell_eq (hcell a ha)
  · intro hc _
    refine ⟨rfl, fun c hcg => ?_⟩
    have hzero : inDegree g.graph m.targets c = 0 :=
      inDegree_eq_zero.mpr (fun r hr hcr => hcg (hc r hr c hcr))
    rw [Memory.count, hvertex c hcg, hzero, Memory.count, Nat.sub_zero]
  · exact m.vertices.next_releaseAll g.graph

end DAG

end DagScheduler.Graphs

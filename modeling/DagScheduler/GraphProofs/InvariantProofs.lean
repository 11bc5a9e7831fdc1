import DagScheduler.GraphProofs.EffectProofs

/-! What survives a call: for the graph it was made on, for what it made, and for all others. -/

namespace DagScheduler.Graphs

open Library Library.Programs Library.Digraphs

variable {σ π : Type} {m m' : Memory σ π} {g g' h : DAG} {a b c : Addr} {v w : DAGVertex σ π}
  {vs : List (DAGVertex σ π)} {V : List Addr} {made others : List DAG}

/-- From one memory to a later one, as the vertices of a graph see it that the call was not about. -/
structure Evolves (V : List Addr) (m m' : Memory σ π) : Prop where
  owners : ∀ a ∈ V, m'.vertices.owners a = m.vertices.owners a
  uuid : ∀ a ∈ V, m'.uuid a = m.uuid a
  edges : ∀ a ∈ V, m'.edges a = m.edges a
  live : ∀ a, a < m.vertices.next → m'.Live a → m.Live a
  next : m.vertices.next ≤ m'.vertices.next

namespace Evolves

lemma of_cells (hcell : ∀ a ∈ V, m'.vertices.cell a = m.vertices.cell a)
    (hlive : ∀ a, a < m.vertices.next → m'.Live a → m.Live a)
    (hnext : m.vertices.next ≤ m'.vertices.next) : Evolves V m m' := by
  have hvertex : ∀ a ∈ V, m'.vertex a = m.vertex a := fun a ha =>
    SharedHeap.value_of_cell_eq (hcell a ha)
  refine ⟨fun a ha => SharedHeap.owners_of_cell_eq (hcell a ha), ?_, ?_, hlive, hnext⟩
  · exact fun a ha => by rw [Memory.uuid, hvertex a ha, Memory.uuid]
  · exact fun a ha => by rw [Memory.edges, hvertex a ha, Memory.edges]

lemma of_kept (hm : Kept m m') (hV : ∀ a ∈ V, a < m.vertices.next) : Evolves V m m' :=
  .of_cells (fun a ha => hm.cell a (hV a ha)) (fun _ ha hl => (hm.live ha).mp hl) hm.next

end Evolves

namespace DAG

lemma Base.evolves (hg : g.Base m) (he : Evolves g'.graph m m') (hsub : g'.graph.Sublist g.graph)
    (hc : g'.jsonConfig = g.jsonConfig) : g'.Base m' where
  nodup := hg.nodup.sublist hsub
  sole a ha := (he.owners a ha).trans (hg.sole a (hsub.subset ha))
  uuids a ha b hb hab := by
    rw [he.uuid a ha, he.uuid b hb] at hab
    exact hg.uuids a (hsub.subset ha) b (hsub.subset hb) hab
  known a ha e hea c hc := by
    rw [he.edges a ha] at hea
    exact (hg.known a (hsub.subset ha) e hea c hc).trans_le he.next
  config := hc ▸ hg.config

lemma targets_evolves (hg : g.Base m) (ha : a ∈ g.graph) (he : Evolves V m m') (haV : a ∈ V)
    (hc : c ∈ m'.targets a) : c ∈ m.targets a := by
  obtain ⟨e, hea, hec, hl⟩ := mem_targets.mp hc
  rw [he.edges a haV] at hea
  exact mem_targets.mpr ⟨e, hea, hec, he.live c (hg.known a ha e hea c hec) hl⟩

lemma Removal.evolves {rs : List Addr} (hr : Removal g m rs m') (hV : ∀ a ∈ V, a ∉ rs) :
    Evolves V m m' where
  owners a ha := hr.owners a (hV a ha)
  uuid a ha := uuid_of_core (hr.core a (hV a ha))
  edges a ha := hr.edges a (hV a ha)
  live a _ hl := by
    by_cases har : a ∈ rs
    · simp [Memory.Live, Memory.vertex, SharedHeap.value, hr.dead a har] at hl
    · have hc := congrArg Option.isSome (hr.core a har)
      simp only [Option.isSome_map] at hc
      rw [Memory.Live, ← hc]
      exact hl
  next := hr.next.ge

lemma Grow.cells {s s' : DAG × Memory σ π} (hs : Grow vs s s') (ha : a ∉ s.1.graph)
    (hlt : a < s.2.vertices.next) : s'.2.vertices.cell a = s.2.vertices.cell a := by
  cases hs with
  | untouched hm => exact hm.cell a
  | @edge g m x y hx hy _ _ =>
    refine (Frame.addEdge m x y).cell a ?_
    rintro (rfl | rfl)
    · exact ha hx
    · exact ha hy
  | vertex _ _ => exact (kept_makeShared _ _).cell a hlt

lemma Grow.live {s s' : DAG × Memory σ π} (hs : Grow vs s s') (hlt : a < s.2.vertices.next)
    (hl : s'.2.Live a) : s.2.Live a := by
  cases hs with
  | untouched hm => exact (hm.live a).mp hl
  | edge _ _ _ _ => exact ((Frame.addEdge _ _ _).live a).mp hl
  | vertex _ _ => exact ((kept_makeShared _ _).live hlt).mp hl

lemma Grow.graph {s s' : DAG × Memory σ π} (hs : Grow vs s s') :
    ∀ a ∈ s'.1.graph, a ∈ s.1.graph ∨ s.2.vertices.next ≤ a := by
  cases hs with
  | untouched _ => exact fun a => Or.inl
  | edge _ _ _ _ => exact fun a => Or.inl
  | vertex _ _ =>
    intro a ha
    rcases List.mem_append.mp ha with ha | ha
    · exact .inl ha
    · exact .inr (List.mem_singleton.mp ha).ge

lemma Growth.next {s s' : DAG × Memory σ π} (hs : Growth vs s s') :
    s.2.vertices.next ≤ s'.2.vertices.next := by
  induction hs with
  | refl => exact le_refl _
  | tail _ hlast ih => exact ih.trans hlast.next

lemma Growth.graph {s s' : DAG × Memory σ π} (hs : Growth vs s s') :
    ∀ a ∈ s'.1.graph, a ∈ s.1.graph ∨ s.2.vertices.next ≤ a := by
  induction hs with
  | refl => exact fun a => Or.inl
  | tail hst hlast ih =>
    intro a ha
    rcases hlast.graph a ha with hat | hle
    · exact ih a hat
    · exact .inr ((Growth.next hst).trans hle)

lemma Growth.cells {s s' : DAG × Memory σ π} (hs : Growth vs s s') (ha : a ∉ s.1.graph)
    (hlt : a < s.2.vertices.next) : s'.2.vertices.cell a = s.2.vertices.cell a := by
  induction hs with
  | refl => rfl
  | tail hst hlast ih =>
    refine (hlast.cells (fun hat => ?_) (hlt.trans_le (Growth.next hst))).trans ih
    rcases Growth.graph hst a hat with hag | hle
    · exact ha hag
    · exact absurd hlt (Nat.not_lt.mpr hle)

lemma Growth.live {s s' : DAG × Memory σ π} (hs : Growth vs s s') (hlt : a < s.2.vertices.next)
    (hl : s'.2.Live a) : s.2.Live a := by
  induction hs with
  | refl => exact hl
  | tail hst hlast ih => exact ih (hlast.live (hlt.trans_le (Growth.next hst)) hl)

lemma Growth.evolves {s s' : DAG × Memory σ π} (hs : Growth vs s s')
    (hV : ∀ a ∈ V, a ∉ s.1.graph ∧ a < s.2.vertices.next) : Evolves V s.2 s'.2 :=
  .of_cells (fun a ha => Growth.cells hs (hV a ha).1 (hV a ha).2) (fun _ hlt hl => Growth.live hs hlt hl)
    (Growth.next hs)

/-! Acyclicity. -/

lemma Acyclic.evolves (hc : g.Acyclic m) (hg : g.Base m) (he : Evolves g'.graph m m')
    (hsub : g'.graph ⊆ g.graph) : g'.Acyclic m' := by
  refine Digraphs.Acyclic.mono hc ?_
  rintro a b ⟨ha, hb, hab⟩
  exact ⟨hsub ha, hsub hb, targets_evolves hg (hsub ha) he ha hab⟩

lemma mem_resolved (hg : g.Base m) (hb : b ∈ g.graph) (hab : b ∈ m.targets a) :
    b ∈ g.resolved m a := by
  obtain ⟨e, he, hec, hl⟩ := mem_targets.mp hab
  refine List.mem_filterMap.mpr ⟨e, he, ?_⟩
  rw [resolve, connection_eq_some.mpr ⟨hec, hl⟩, Option.bind_some]
  exact find_uuid hg.uuids hb rfl

lemma resolved_of_closed (hu : g.DistinctUuids m) (hc : Closed g.graph m.targets) (ha : a ∈ g.graph) :
    g.resolved m a = m.targets a := by
  apply List.filterMap_congr
  intro e he
  cases hec : m.connection e with
  | none => simp [resolve, hec]
  | some c =>
    obtain ⟨hconn, hl⟩ := connection_eq_some.mp hec
    have hcg : c ∈ g.graph := hc a ha c (mem_targets.mpr ⟨e, he, hconn, hl⟩)
    rw [resolve, hec, Option.bind_some]
    exact find_uuid hu hcg rfl

lemma Acyclic.grow (hc : g.Acyclic m) (hg : g.Base m) (hvs : ∀ v ∈ vs, v.Known m)
    (hs : Grow vs (g, m) (g', m')) : g'.Acyclic m' := by
  cases hs with
  | untouched hm =>
    exact hc.evolves hg (.of_kept hm.kept (fun a ha => hg.lt ha)) (List.Subset.refl _)
  | @edge _ _ a b ha hb _ hac =>
    refine Digraphs.Acyclic.mono hac ?_
    rintro u v ⟨hu, hv, huv⟩
    rw [targets_addEdge (hg.live ha) (hg.live hb)] at huv
    by_cases hua : u = a
    · subst hua
      rw [Function.update_self, List.mem_append, List.mem_singleton] at huv
      rcases huv with huv | rfl
      · exact .inl ⟨hu, mem_resolved hg hv huv⟩
      · exact .inr ⟨rfl, rfl⟩
    · rw [Function.update_of_ne hua] at huv
      exact .inl ⟨hu, mem_resolved hg hv huv⟩
  | @vertex _ _ v hv hn =>
    have he : Evolves g.graph m { m with vertices := m.vertices.makeShared v } :=
      .of_kept (kept_makeShared m v) (fun a ha => hg.lt ha)
    refine Digraphs.Acyclic.of_source (n := m.vertices.next) hc ?_ ?_
    · -- Nobody can have observed the new vertex before it was there.
      rintro u ⟨hu, -, huv⟩
      obtain ⟨e, hue, hec, -⟩ := mem_targets.mp huv
      rcases List.mem_append.mp hu with hu | hu
      · rw [he.edges u hu] at hue
        exact Nat.lt_irrefl _ (hg.known u hu e hue _ hec)
      · rw [List.mem_singleton.mp hu, edges_of_vertex (vertex_makeShared_self m v)] at hue
        exact Nat.lt_irrefl _ (hvs v hv e hue _ hec)
    · rintro u w hne ⟨hu, hw, huw⟩
      have hu' : u ∈ g.graph := by
        rcases List.mem_append.mp hu with hu | hu
        · exact hu
        · exact absurd (List.mem_singleton.mp hu) hne
      have huw' := targets_evolves hg hu' he hu' huw
      refine ⟨hu', ?_, huw'⟩
      rcases List.mem_append.mp hw with hw | hw
      · exact hw
      · obtain ⟨e, hue, hec, -⟩ := mem_targets.mp huw'
        exact absurd (hg.known u hu' e hue w hec) (by simp [List.mem_singleton.mp hw])

/-! Counters. -/

structure Sound (g : DAG) (m : Memory σ π) : Prop extends Base g m where
  closed : Closed g.graph m.targets
  counted : g.Counted m
  simple : g.Simple m

lemma targets_of_cells (hg : g.Base m) (hc : Closed g.graph m.targets) (he : Evolves g.graph m m')
    (hcell : ∀ a ∈ g.graph, m'.vertices.cell a = m.vertices.cell a) (ha : a ∈ g.graph) :
    m'.targets a = m.targets a := by
  rw [Memory.targets, he.edges a ha]
  apply List.filterMap_congr
  intro e hea
  apply Option.ext
  intro c
  rw [connection_eq_some, connection_eq_some]
  refine and_congr_right (fun hec => ?_)
  constructor
  · exact he.live c (hg.known a ha e hea c hec)
  · intro hl
    have hcg : c ∈ g.graph := hc a ha c (mem_targets.mpr ⟨e, hea, hec, hl⟩)
    rw [Memory.Live, Memory.vertex, SharedHeap.value_of_cell_eq (hcell c hcg)]
    exact hl

lemma Sound.of_cells (hg : g.Sound m) (he : Evolves g.graph m m')
    (hcell : ∀ a ∈ g.graph, m'.vertices.cell a = m.vertices.cell a) : g.Sound m' := by
  have ht : ∀ a ∈ g.graph, m'.targets a = m.targets a :=
    fun a ha => targets_of_cells hg.toBase hg.closed he hcell ha
  refine ⟨hg.toBase.evolves he (List.Sublist.refl _) rfl, ?_, ?_, ?_⟩
  · intro a ha c hc
    rw [ht a ha] at hc
    exact hg.closed a ha c hc
  · intro a ha
    rw [Memory.count, Memory.vertex, SharedHeap.value_of_cell_eq (hcell a ha), inDegree_congr ht]
    exact hg.counted a ha
  · intro a ha
    rw [ht a ha]
    exact hg.simple a ha

lemma Grow.wrapped {s s' : DAG × Memory σ π} (hs : Grow vs s s') : s'.2.wrapped = s.2.wrapped := by
  cases hs with
  | untouched hm => exact hm.wrapped
  | edge _ _ _ _ => rfl
  | vertex _ _ => rfl

lemma Sound.grow (hg : g.Sound m) (hvs : ∀ v ∈ vs, v.Disconnected) (hs : Grow vs (g, m) (g', m')) :
    g'.Sound m' := by
  have hknown : ∀ v ∈ vs, v.Known m := fun v hv e he => by simp [(hvs v hv).edges] at he
  have hb := hg.toBase.grow hknown hs
  cases hs with
  | untouched hm =>
    exact hg.of_cells (.of_kept hm.kept (fun a ha => hg.lt ha)) (fun a _ => hm.cell a)
  | @edge _ _ a b ha hb' hn hac =>
    have hla := hg.live ha
    have hlb := hg.live hb'
    exact ⟨hb, Closed.addEdge hg.closed hla hlb hb', hg.counted.addEdge hg.owned ha hlb,
      hg.simple.addEdge hla hlb hn⟩
  | @vertex _ _ v hv hn =>
    let m₁ : Memory σ π := { m with vertices := m.vertices.makeShared v }
    have hkept : Kept m m₁ := kept_makeShared m v
    have hold : g.Sound m₁ := hg.of_cells (.of_kept hkept (fun a ha => hg.lt ha))
      (fun a ha => hkept.cell a (hg.lt ha))
    have hv' : m₁.vertex m.vertices.next = some v := vertex_makeShared_self m v
    have hnone : m₁.targets m.vertices.next = [] := by
      rw [Memory.targets, edges_of_vertex hv', (hvs v hv).edges, List.filterMap_nil]
    have hdeg : ∀ c, inDegree (g.graph ++ [m.vertices.next]) m₁.targets c = inDegree g.graph m₁.targets c := by
      intro c
      rw [inDegree_append, inDegree_cons, inDegree_nil, hnone]
      rfl
    have hnew : inDegree g.graph m₁.targets m.vertices.next = 0 := by
      refine inDegree_eq_zero.mpr (fun u hu hin => ?_)
      exact Nat.lt_irrefl _ (hg.lt (hold.closed u hu _ hin))
    refine ⟨hb, ?_, ?_, ?_⟩
    · intro a ha c hc
      rcases List.mem_append.mp ha with ha | ha
      · exact List.mem_append_left _ (hold.closed a ha c hc)
      · rw [List.mem_singleton.mp ha, hnone] at hc
        exact absurd hc List.not_mem_nil
    · intro a ha
      rw [hdeg]
      rcases List.mem_append.mp ha with ha | ha
      · exact hold.counted a ha
      · rw [List.mem_singleton.mp ha, hnew, count_of_vertex hv', (hvs v hv).incommingEdgeCount]
    · intro a ha
      rcases List.mem_append.mp ha with ha | ha
      · exact hold.simple a ha
      · rw [List.mem_singleton.mp ha, hnone]
        exact List.nodup_nil

lemma Sound.removal {p : Addr → Bool} (hg : g.Sound m) (hr : Removal g m (g.graph.filter p) m') :
    Sound { g with graph := g.graph.filter fun a => !p a } m' ∧ m'.wrapped = m.wrapped := by
  have hmem : ∀ a ∈ g.graph.filter (fun a => !p a), a ∈ g.graph ∧ a ∉ g.graph.filter p := by
    intro a ha
    obtain ⟨hag, hp⟩ := List.mem_filter.mp ha
    exact ⟨hag, fun har => by simp [(List.mem_filter.mp har).2] at hp⟩
  have hpart := inDegree_partition p g.graph m.targets
  have hle := hg.counted.inDegree_le hg.closed (hg.nodup.filter p) (List.filter_subset_self _)
  obtain ⟨hw, hcount⟩ := hr.counts hg.closed hle
  refine ⟨⟨?_, ?_, ?_, ?_⟩, hw⟩
  · exact hg.toBase.evolves (Removal.evolves hr (fun a ha => (hmem a ha).2)) List.filter_sublist rfl
  · intro a ha c hc
    rw [hr.targets (hmem a ha).2] at hc
    obtain ⟨hct, hcr⟩ := List.mem_filter.mp hc
    have hcg := hg.closed a (hmem a ha).1 c hct
    refine List.mem_filter.mpr ⟨hcg, ?_⟩
    cases hp : p c with
    | false => rfl
    | true => simp [List.mem_filter, hcg, hp] at hcr
  · intro c hc
    obtain ⟨hcg, hcr⟩ := hmem c hc
    have hsame : inDegree (g.graph.filter fun a => !p a) m'.targets c =
        inDegree (g.graph.filter fun a => !p a) m.targets c := by
      refine inDegree_congr_count (fun u hu => ?_)
      rw [hr.targets (hmem u hu).2]
      exact List.count_filter (by rw [decide_eq_false hcr]; rfl)
    have hd := hpart c
    rw [hcount c hcr, hg.counted c hcg, hsame]
    omega
  · intro a ha
    rw [hr.targets (hmem a ha).2]
    exact (hg.simple a (hmem a ha).1).filter _

lemma Growth.sound {s s' : DAG × Memory σ π} (hs : Growth vs s s') (hg : s.1.Sound s.2)
    (hvs : ∀ v ∈ vs, v.Disconnected) : s'.1.Sound s'.2 ∧ s'.2.wrapped = s.2.wrapped := by
  induction hs with
  | refl => exact ⟨hg, rfl⟩
  | tail _ hlast ih => exact ⟨ih.1.grow hvs hlast, hlast.wrapped.trans ih.2⟩

lemma WellFormed.sound (hg : g.WellFormed m) (hb : g.Base m) : g.Sound m :=
  ⟨hb, hg.inside.closed, hg.counted, hg.simple⟩

variable [TaskStage σ] [TaskCallbackPlugin π] {call : Call σ π}

lemma IsClone.kept {φ : Addr → Addr} (hk : IsClone g m φ h m') : Kept m m' :=
  ⟨hk.copied.old, hk.copied.next, hk.wrapped⟩

lemma IsClone.base {φ : Addr → Addr} (hk : IsClone g m φ h m') : h.Base m' where
  nodup := hk.wellFormed.nodup
  sole a ha := by
    rw [hk.graph] at ha
    obtain ⟨b, hb, rfl⟩ := List.mem_map.mp ha
    exact hk.copied.owners b hb
  uuids := hk.wellFormed.uuids
  known := hk.wellFormed.toClonable.known
  config := hk.wellFormed.config

lemma Effect.evolves (he : Effect call g m g' made m') (hV : ∀ a ∈ V, a ∉ g.graph ∧ a < m.vertices.next) :
    Evolves V m m' := by
  cases he with
  | growth hs => exact Growth.evolves hs hV
  | removal hs => exact Removal.evolves hs (fun a ha har => (hV a ha).1 (List.mem_filter.mp har).1)
  | clone hs => exact .of_kept hs.kept (fun a ha => (hV a ha).2)

lemma Effect.base (he : Effect call g m g' made m') (hg : g.Base m) (hvs : ∀ v ∈ call.vertices, v.Known m) :
    g'.Base m' ∧ ∀ k ∈ made, k.Base m' := by
  cases he with
  | growth hs => exact ⟨Growth.base hs hg hvs, by simp⟩
  | removal hs =>
    refine ⟨hg.evolves (Removal.evolves hs ?_) List.filter_sublist rfl, by simp⟩
    intro a ha har
    have hp := (List.mem_filter.mp ha).2
    simp [(List.mem_filter.mp har).2] at hp
  | clone hs =>
    refine ⟨hg.evolves (.of_kept hs.kept (fun a ha => hg.lt ha)) (List.Sublist.refl _) rfl, ?_⟩
    intro k hk
    rw [List.mem_singleton.mp hk]
    exact hs.base

lemma Effect.graphs (he : Effect call g m g' made m') :
    (∀ a ∈ g'.graph, a ∈ g.graph ∨ m.vertices.next ≤ a) ∧ ∀ k ∈ made, g' = g ∧ made = [k] ∧
      ∀ a ∈ k.graph, m.vertices.next ≤ a := by
  cases he with
  | growth hs =>
    exact ⟨Growth.graph hs, by simp⟩
  | removal hs => exact ⟨fun a ha => .inl (List.mem_filter.mp ha).1, by simp⟩
  | clone hs =>
    refine ⟨fun a ha => .inl ha, ?_⟩
    intro k hk
    obtain rfl := List.mem_singleton.mp hk
    refine ⟨rfl, rfl, fun a ha => ?_⟩
    rw [hs.graph] at ha
    obtain ⟨b, hb, rfl⟩ := List.mem_map.mp ha
    exact hs.copied.fresh b hb

lemma IsClone.mem_targets {φ : Addr → Addr} (hk : IsClone g m φ h m') (ha : a ∈ g.graph) :
    b ∈ m'.targets (φ a) ↔ ∃ c ∈ g.resolved m a, φ c = b := by
  rw [hk.targets a ha, mem_extend]
  simp

lemma IsClone.acyclic {φ : Addr → Addr} (hk : IsClone g m φ h m') :
    h.Acyclic m' ↔ Digraphs.Acyclic (Edge g.graph (g.resolved m)) := by
  have hinj : Set.InjOn φ {a | a ∈ g.graph} := fun _ ha _ hb hab => hk.copied.injective _ ha _ hb hab
  have hmem : ∀ u v, Edge g.graph (g.resolved m) u v → u ∈ {a | a ∈ g.graph} ∧ v ∈ {a | a ∈ g.graph} :=
    fun u v huv => ⟨huv.1, mem_of_mem_resolved huv.2⟩
  rw [DAG.Acyclic, connected_eq hk.wellFormed.inside.closed]
  refine acyclic_image_iff hinj hmem ?_
  intro x y
  constructor
  · rintro ⟨hx, hy⟩
    rw [hk.graph] at hx
    obtain ⟨u, hu, rfl⟩ := List.mem_map.mp hx
    obtain ⟨v, hv, rfl⟩ := (hk.mem_targets hu).mp hy
    exact ⟨u, v, ⟨hu, hv⟩, rfl, rfl⟩
  · rintro ⟨u, v, ⟨hu, hv⟩, rfl, rfl⟩
    exact ⟨hk.graph ▸ List.mem_map_of_mem hu, (hk.mem_targets hu).mpr ⟨v, hv, rfl⟩⟩

lemma IsClone.acyclic_of_closed {φ : Addr → Addr} (hk : IsClone g m φ h m') (hg : g.Base m)
    (hc : Closed g.graph m.targets) (hac : g.Acyclic m) : h.Acyclic m' := by
  rw [hk.acyclic]
  refine Digraphs.Acyclic.mono hac ?_
  rintro u v ⟨hu, hv⟩
  rw [resolved_of_closed hg.uuids hc hu] at hv
  exact ⟨hu, hc u hu v hv, hv⟩

lemma Effect.acyclic (he : Effect call g m g' made m') (hg : g.Base m)
    (hvs : ∀ v ∈ call.vertices, v.Known m) (hc : g.Acyclic m) : g'.Acyclic m' := by
  cases he with
  | growth hs =>
    exact (Growth.induct hs (I := Acyclic) (fun _ _ _ _ hg hvs hI hs => hI.grow hg hvs hs) hg hvs hc).2.2
  | removal hs =>
    refine hc.evolves hg (Removal.evolves hs ?_) List.filter_sublist.subset
    intro a ha har
    have hp := (List.mem_filter.mp ha).2
    simp [(List.mem_filter.mp har).2] at hp
  | clone hs =>
    exact hc.evolves hg (.of_kept hs.kept (fun a ha => hg.lt ha)) (List.Subset.refl _)

lemma Effect.sound (he : Effect call g m g' made m') (hg : g.Sound m)
    (hvs : ∀ v ∈ call.vertices, v.Disconnected) :
    g'.Sound m' ∧ m'.wrapped = m.wrapped ∧ ∀ k ∈ made, k.Sound m' := by
  cases he with
  | growth hs =>
    obtain ⟨hg', hw⟩ := Growth.sound hs hg hvs
    exact ⟨hg', hw, by simp⟩
  | removal hs =>
    obtain ⟨hg', hw⟩ := hg.removal hs
    exact ⟨hg', hw, by simp⟩
  | clone hs =>
    have hkept := hs.kept
    refine ⟨hg.of_cells (.of_kept hkept (fun a ha => hg.lt ha)) (fun a ha => hkept.cell a (hg.lt ha)),
      hkept.wrapped, ?_⟩
    intro k hk
    rw [List.mem_singleton.mp hk]
    exact hs.wellFormed.sound hs.base

lemma Effect.cells (he : Effect call g m g' made m') (hc : Closed g.graph m.targets) (ha : a ∉ g.graph)
    (hlt : a < m.vertices.next) : m'.vertices.cell a = m.vertices.cell a := by
  cases he with
  | growth hs => exact Growth.cells hs ha hlt
  | removal hs =>
    refine hs.cell a (fun har => ha (List.mem_filter.mp har).1) ?_
    intro r hr har
    exact ha (hc r (List.mem_filter.mp hr).1 a har)
  | clone hs => exact hs.kept.cell a hlt

lemma Effect.sound_other (he : Effect call g m g' made m') (hg : g.Sound m) (hh : h.Sound m)
    (hd : ∀ a ∈ h.graph, a ∉ g.graph) : h.Sound m' :=
  hh.of_cells (he.evolves (fun a ha => ⟨hd a ha, hh.lt ha⟩))
    (fun a ha => he.cells hg.closed (hd a ha) (hh.lt ha))

end DAG

end DagScheduler.Graphs

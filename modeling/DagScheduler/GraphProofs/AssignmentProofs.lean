import DagScheduler.GraphProofs.AdditionProofs
import DagScheduler.Library.Lists

/-! The copy assignment adds clones to what the target has and then pairs the two lists place by
place, so the target ends as a copy only if it began as a beginning of one. -/

namespace DagScheduler.Graphs.DAG

open Library Library.Programs Library.Digraphs Library.Lists

variable {σ π : Type} {m m' m₁ : Memory σ π} {g g' g₁ this rhs : DAG} {a b : Addr} {v w : DAGVertex σ π}
  {as bs added first rest : List Addr} {φ : Addr → Addr}

def Listed (g : DAG) (m : Memory σ π) (b : Addr) : Prop := ∃ a ∈ g.graph, m.uuid a = m.uuid b

instance : Decidable (g.Listed m b) := inferInstanceAs (Decidable (∃ a ∈ g.graph, m.uuid a = m.uuid b))

def unlisted (g : DAG) (m : Memory σ π) (bs : List Addr) : List Addr := bs.filter fun b => !decide (g.Listed m b)

lemma listed_iff (hv : m.vertex b = some v) : g.Listed m b ↔ g.Has m v.uuid := by
  rw [Listed, Has, uuid_of_vertex hv]

lemma unlisted_congr (h : ∀ b ∈ bs, g₁.Listed m₁ b ↔ g.Listed m b) : g₁.unlisted m₁ bs = g.unlisted m bs :=
  List.filter_congr fun b hb => by rw [decide_eq_decide.mpr (h b hb)]

/-- What has another identifier than the new vertex is listed as before. -/
lemma Adds.unlisted_eq (h : Adds g m v g₁ m₁) (hg : g.WellFormed m) (hlive : ∀ b ∈ bs, m.Live b)
    (hne : ∀ b ∈ bs, m.uuid b ≠ some v.uuid) : g₁.unlisted m₁ bs = g.unlisted m bs := by
  refine unlisted_congr fun b hb => ?_
  obtain ⟨w, hw⟩ := Memory.live_iff.mp (hlive b hb)
  have hw₁ : m₁.vertex b = some w := (h.memory.vertex (vertex_lt (hlive b hb))).trans hw
  have hwv : w.uuid ≠ v.uuid := fun heq => hne b hb ((uuid_of_vertex hw).trans (congrArg some heq))
  rw [listed_iff hw₁, listed_iff hw, h.has_iff hg, or_iff_left hwv]

variable [TaskStage σ] [TaskCallbackPlugin π]

def Duplicate (m : Memory σ π) (b a : Addr) : Prop := ∃ v, m.vertex b = some v ∧ m.vertex a = some v.clone

lemma addClone_adds (ho : g.Owned m) (hv : m.vertex b = some v) :
    ∃ g₁ m₁, Returns (g.addClone b) m g₁ m₁ ∧ Adds g m v.clone g₁ m₁ := by
  obtain ⟨added, g₁, v', m₁, hr, hadds⟩ := addVertex_adds ho v.clone
  refine ⟨g₁, m₁, ?_, hadds⟩
  simp only [addClone, returns_bind, returns_deref, returns_pure]
  exact ⟨v, m, ⟨hv, rfl⟩, (added, g₁, v'), m₁, hr, rfl, rfl⟩

structure Extends (g : DAG) (m : Memory σ π) (bs added : List Addr) (m' : Memory σ π) : Prop where
  wellFormed : WellFormed { g with graph := g.graph ++ added } m'
  kept : Kept m m'
  fresh : ∀ a ∈ added, m.vertices.next ≤ a
  copies : List.Forall₂ (Duplicate m') (g.unlisted m bs) added

lemma addClones_extends (hg : g.WellFormed m) (hlive : ∀ b ∈ bs, m.Live b) (hn : (bs.map m.uuid).Nodup) :
    ∃ added m', Returns (g.addClones bs) m { g with graph := g.graph ++ added } m' ∧ g.Extends m bs added m' := by
  induction bs generalizing g m with
  | nil =>
    refine ⟨[], m, by simp [addClones], ?_, (Untouched.refl m).kept, by simp, .nil⟩
    exact hg.of_eq (List.append_nil _) hg.config
  | cons b bs ih =>
    obtain ⟨hlb, hlive⟩ := List.forall_mem_cons.mp hlive
    obtain ⟨hb, hn⟩ := List.nodup_cons.mp hn
    obtain ⟨v, hv⟩ := Memory.live_iff.mp hlb
    obtain ⟨g₁, m₁, hr₁, hadds⟩ := addClone_adds hg.toOwned hv
    have hg₁ := hadds.wellFormed hg ⟨rfl, rfl⟩
    have hk := hadds.memory
    have huuid : ∀ c ∈ bs, m₁.uuid c = m.uuid c := fun c hc => hk.uuid (vertex_lt (hlive c hc))
    have hlive₁ : ∀ c ∈ bs, m₁.Live c := fun c hc => (hk.live (vertex_lt (hlive c hc))).mpr (hlive c hc)
    obtain ⟨added, m₂, hr₂, h₂⟩ := ih hg₁ hlive₁ (List.map_congr_left huuid ▸ hn)
    have hne : ∀ c ∈ bs, m.uuid c ≠ some v.clone.uuid :=
      fun c hc heq => hb (List.mem_map.mpr ⟨c, hc, heq.trans (uuid_of_vertex hv).symm⟩)
    have hcopies := hadds.unlisted_eq hg hlive hne ▸ h₂.copies
    have hbm₂ : m₂.vertex b = some v := ((hk.trans h₂.kept).vertex (vertex_lt hlb)).trans hv
    cases hadds with
    | kept has =>
      refine ⟨added, m₂, returns_foldlM_cons.mpr ⟨g, m, hr₁, hr₂⟩, h₂.wellFormed, h₂.kept, h₂.fresh, ?_⟩
      rw [unlisted, List.filter_cons_of_neg (by simpa using (listed_iff hv).mpr has)]
      exact hcopies
    | new missing =>
      refine ⟨m.vertices.next :: added, m₂, returns_foldlM_cons.mpr ⟨_, _, hr₁, ?_⟩, ?_, hk.trans h₂.kept, ?_, ?_⟩
      · simpa [addClones] using hr₂
      · simpa using h₂.wellFormed
      · refine List.forall_mem_cons.mpr ⟨Nat.le_refl _, fun a ha => hk.next.trans (h₂.fresh a ha)⟩
      · rw [unlisted, List.filter_cons_of_pos (by simpa using fun hl => missing ((listed_iff hv).mp hl))]
        refine .cons ⟨v, hbm₂, ?_⟩ hcopies
        have hself := vertex_makeShared_self m v.clone
        rw [h₂.kept.vertex (vertex_lt (Memory.live_of_vertex hself)), hself]

lemma cloneConnections_keeps (hg : g.WellFormed m) (hb : b ∈ g.graph)
    (hr : Returns (g.cloneConnections a b) m () m') : g.WellFormed m' ∧ Frame (· ∈ g.graph) m m' := by
  simp only [cloneConnections, returns_bind, returns_deref, returns_cppAssert, returns_cloneAllConnections] at hr
  obtain ⟨v, _, ⟨-, rfl⟩, w, _, ⟨-, rfl⟩, _, _, ⟨-, rfl⟩, cs, _, ⟨-, -, rfl⟩, hr⟩ := hr
  obtain ⟨ys, hys⟩ := connectClones_found hb hg hr
  obtain ⟨m₁, hr₁, hg₁, hf₁, -, -⟩ := connectClones_returns hb hg hys
  obtain ⟨-, rfl⟩ := hr.unique hr₁
  exact ⟨hg₁, hf₁⟩

lemma cloneEachConnection_keeps (hg : g.WellFormed m) (hbs : bs ⊆ g.graph)
    (hr : Returns (g.cloneEachConnection as bs) m () m') : g.WellFormed m' ∧ Frame (· ∈ g.graph) m m' := by
  induction bs generalizing as m with
  | nil =>
    simp only [cloneEachConnection, returns_pure] at hr
    obtain ⟨-, rfl⟩ := hr
    exact ⟨hg, Frame.refl _ m'⟩
  | cons b bs ih =>
    obtain ⟨hb, hbs⟩ := List.cons_subset.mp hbs
    cases as with
    | nil => exact absurd hr returns_throw
    | cons a as =>
      simp only [cloneEachConnection, returns_bind] at hr
      obtain ⟨_, m₁, hr₁, hr₂⟩ := hr
      obtain ⟨hg₁, hf₁⟩ := cloneConnections_keeps hg hb hr₁
      obtain ⟨hg₂, hf₂⟩ := ih hg₁ hbs hr₂
      exact ⟨hg₂, hf₁.trans hf₂⟩

/-- The identifiers of the target are the first ones of the source. -/
structure Aligned (this rhs : DAG) (m : Memory σ π) (first rest : List Addr) : Prop where
  split : rhs.graph = first ++ rest
  uuids : first.map m.uuid = this.graph.map m.uuid
  apart : ∀ a ∈ this.graph, a ∉ rhs.graph

omit [TaskStage σ] [TaskCallbackPlugin π] in
lemma Aligned.unlisted (h : Aligned this rhs m first rest) (hb : rhs.WellFormed m) :
    this.unlisted m rhs.graph = rest := by
  have hfirst : ∀ b ∈ first, this.Listed m b := by
    intro b hbf
    obtain ⟨a, ha, hab⟩ := List.mem_map.mp (h.uuids ▸ List.mem_map_of_mem hbf)
    exact ⟨a, ha, hab⟩
  have hrest : ∀ b ∈ rest, ¬ this.Listed m b := by
    rintro b hbr ⟨a, ha, hab⟩
    obtain ⟨c, hc, hca⟩ := List.mem_map.mp (h.uuids.symm ▸ List.mem_map_of_mem ha : m.uuid a ∈ first.map m.uuid)
    have hcg : c ∈ rhs.graph := h.split ▸ List.mem_append_left _ hc
    have hbg : b ∈ rhs.graph := h.split ▸ List.mem_append_right _ hbr
    have hn := h.split ▸ hb.nodup
    exact (List.nodup_append.mp hn).2.2 c hc b hbr (hb.uuids c hcg b hbg (hca.trans hab))
  rw [h.split, DAG.unlisted, List.filter_append, List.filter_eq_nil_iff.mpr (by simpa using hfirst),
    List.filter_eq_self.mpr (by simpa using hrest), List.nil_append]

omit [TaskStage σ] [TaskCallbackPlugin π] in
lemma Clonable.mem_of_sees (hg : g.Clonable m) (ha : g.Sees m a) : a ∈ g.graph := by
  rcases ha with ha | ⟨b, hb, e, he, hea⟩
  · exact ha
  · obtain ⟨c, hc, hec⟩ := hg.inside b hb e he
    exact Option.some.inj (hea.symm.trans hec) ▸ hc

structure Paired (this rhs : DAG) (m : Memory σ π) (first rest : List Addr) (φ : Addr → Addr) (m' : Memory σ π) :
    Prop extends Renames rhs m φ { this with graph := rhs.graph.map φ } m' where
  kept : Kept m m'
  listed : first.map φ = this.graph
  fresh : ∀ b ∈ rest, m.vertices.next ≤ φ b
  copies : ∀ b ∈ rest, Duplicate m' b (φ b)

lemma Aligned.paired (h : Aligned this rhs m first rest) (ha : this.WellFormed m) (hb : rhs.WellFormed m) :
    ∃ φ m', Returns (this.addClones rhs.graph) m { this with graph := rhs.graph.map φ } m' ∧
      Paired this rhs m first rest φ m' := by
  obtain ⟨added, m₁, hr, h₁⟩ := addClones_extends ha hb.live (hb.nodup.map_on hb.uuids)
  have hcopies : List.Forall₂ (Duplicate m₁) rest added := h.unlisted hb ▸ h₁.copies
  have hlenf : first.length = this.graph.length := by simpa using congrArg List.length h.uuids
  have hlen : rhs.graph.length = (this.graph ++ added).length := by
    rw [h.split, List.length_append, List.length_append, hlenf, hcopies.length_eq]
  obtain ⟨φ, hφ⟩ := exists_map_eq hb.nodup hlen
  obtain ⟨hfirst, hrest⟩ : first.map φ = this.graph ∧ rest.map φ = added := by
    refine List.append_inj ?_ (by rw [List.length_map, hlenf])
    rw [← List.map_append, ← h.split, hφ]
  have huuids : ∀ b ∈ first, m.uuid b = m.uuid (φ b) := by
    have huuids := h.uuids
    rw [← hfirst, List.map_map] at huuids
    exact List.map_inj_left.mp huuids
  have hcopies : ∀ b ∈ rest, Duplicate m₁ b (φ b) := by
    rw [← hrest, List.forall₂_map_right_iff] at hcopies
    exact List.forall₂_same.mp hcopies
  have hold : ∀ b ∈ rhs.graph, b < m.vertices.next := fun b hbg => vertex_lt (hb.live b hbg)
  have hwf : WellFormed { this with graph := rhs.graph.map φ } m₁ := hφ ▸ h₁.wellFormed
  have hfresh : ∀ b ∈ rest, m.vertices.next ≤ φ b :=
    fun b hbr => h₁.fresh (φ b) (hrest ▸ List.mem_map_of_mem hbr)
  refine ⟨φ, m₁, hφ ▸ hr, ⟨rfl, ?_, ?_, ?_, ?_, hwf⟩, h₁.kept, hfirst, hfresh, hcopies⟩
  · exact fun b hbg c hcg hbc => List.inj_on_of_nodup_map hwf.nodup hbg hcg hbc
  · intro b hbg
    rcases List.mem_append.mp (h.split ▸ hbg) with hbf | hbr
    · have hφb : φ b ∈ this.graph := hfirst ▸ List.mem_map_of_mem hbf
      rw [h₁.kept.uuid (vertex_lt (ha.live _ hφb)), huuids b hbf]
    · obtain ⟨v, hv, hcopy⟩ := hcopies b hbr
      rw [uuid_of_vertex hcopy, ← h₁.kept.uuid (hold b hbg), uuid_of_vertex hv]
      rfl
  · exact fun x hx => h₁.kept.cell x (hold x (hb.toClonable.mem_of_sees hx))
  · intro x hx hmem
    have hxg := hb.toClonable.mem_of_sees hx
    rcases List.mem_append.mp (hφ ▸ hmem) with hxt | hxa
    · exact h.apart x hxt hxg
    · exact absurd (hold x hxg) (Nat.not_lt.mpr (h₁.fresh x hxa))

structure Assigned (this rhs : DAG) (m : Memory σ π) (first rest : List Addr) (φ : Addr → Addr) (g' : DAG)
    (m' : Memory σ π) : Prop extends Renames rhs m φ g' m' where
  title : g'.title = rhs.title
  jsonConfig : g'.jsonConfig = rhs.jsonConfig
  split : rhs.graph = first ++ rest
  listed : first.map φ = this.graph
  old : ∀ a ∈ this.graph, (m'.vertex a).map DAGVertex.core = (m.vertex a).map DAGVertex.core
  new : ∀ b ∈ rest, m.targets (φ b) = [] ∧ ∀ v, m.vertex b = some v → (m'.vertex (φ b)).map DAGVertex.core = some v.clone
  targets : ∀ b ∈ rhs.graph, m'.targets (φ b) = extend (m.targets (φ b)) ((m.targets b).map φ)

lemma Aligned.assigned (h : Aligned this rhs m first rest) (ha : this.WellFormed m) (hb : rhs.WellFormed m) :
    ∃ φ g' m', Returns (this.assign rhs) m g' m' ∧ Assigned this rhs m first rest φ g' m' := by
  obtain ⟨φ, m₁, hr₁, h₁⟩ := h.paired ha hb
  obtain ⟨m₂, hr₂, h₂, hf, -, ht⟩ :=
    h₁.cloneEachConnection hb.toOwned (List.Sublist.refl _) hb.toClonable.resolves
  obtain ⟨c, hc⟩ := Option.isSome_iff_exists.mp ha.config
  obtain ⟨d, hd⟩ := Option.isSome_iff_exists.mp hb.config
  have hnone : ∀ b ∈ rest, m.vertex (φ b) = none := by
    intro b hbr
    refine Option.eq_none_iff_forall_ne_some.mpr fun v hv => ?_
    exact absurd (m.vertices.value_lt hv) (Nat.not_lt.mpr (h₁.fresh b hbr))
  refine ⟨φ, ⟨rhs.graph.map φ, rhs.title, some d⟩, m₂, ?_, ⟨rfl, h₂.injective, h₂.uuid, h₂.seen, h₂.apart,
    h₂.wellFormed.of_eq rfl rfl⟩, rfl, hd.symm, h.split, h₁.listed, ?_, ?_, ?_⟩
  · simp only [assign, returns_bind]
    exact ⟨_, m₁, hr₁, (), m₂, hr₂, by simp [hc, hd]⟩
  · intro a hat
    rw [hf.core, h₁.kept.vertex (vertex_lt (ha.live a hat))]
  · intro b hbr
    refine ⟨by simp [Memory.targets, Memory.edges, hnone b hbr], fun v hv => ?_⟩
    have hlt := m.vertices.value_lt hv
    obtain ⟨w, hw, hcopy⟩ := h₁.copies b hbr
    obtain rfl : v = w := Option.some.inj (hv.symm.trans ((h₁.kept.vertex hlt).symm.trans hw))
    rw [hf.core, hcopy]
    rfl
  · intro b hbg
    rw [ht b hbg, if_pos hbg, hb.toClonable.resolved hbg]
    congr 1
    rcases List.mem_append.mp (h.split ▸ hbg) with hbf | hbr
    · exact ha.toClonable.targets_kept h₁.kept (h₁.listed ▸ List.mem_map_of_mem hbf)
    · obtain ⟨v, -, hcopy⟩ := h₁.copies b hbr
      rw [Memory.targets, edges_of_vertex hcopy, Memory.targets, Memory.edges, hnone b hbr]
      rfl

namespace Assigned

lemma inside (h : Assigned this rhs m first rest φ g' m') (ha : this.WellFormed m) (hb : b ∈ rhs.graph) :
    ∀ x ∈ m.targets (φ b), x ∈ this.graph := by
  rcases List.mem_append.mp (h.split ▸ hb) with hbf | hbr
  · exact ha.inside.closed (φ b) (h.listed ▸ List.mem_map_of_mem hbf)
  · rw [(h.new b hbr).1]
    simp

lemma injOn (h : Assigned this rhs m first rest φ g' m') : Set.InjOn m'.uuid {x | x ∈ g'.graph} :=
  fun x hx y hy => h.wellFormed.uuids x hx y hy

lemma image (h : Assigned this rhs m first rest φ g' m') (hb : rhs.WellFormed m) (hbg : b ∈ rhs.graph) :
    ∀ y ∈ (m.targets b).map φ, y ∈ g'.graph := by
  intro y hy
  obtain ⟨x, hx, rfl⟩ := List.mem_map.mp hy
  exact h.graph ▸ List.mem_map_of_mem (hb.inside.closed b hbg x hx)

/-- An edge list becomes that of the source exactly if it was a beginning of it. -/
lemma targets_iff (h : Assigned this rhs m first rest φ g' m') (ha : this.WellFormed m) (hb : rhs.WellFormed m)
    (hbg : b ∈ rhs.graph) : m'.targets (φ b) = (m.targets b).map φ ↔
      (m.targets (φ b)).map m.uuid <+: (m.targets b).map m.uuid := by
  have hclosed := hb.inside.closed b hbg
  have hnodup : ((m.targets b).map φ).Nodup :=
    (hb.simple b hbg).map_on fun x hx y hy => h.injective x (hclosed x hx) y (hclosed y hy)
  have hthis : ∀ x ∈ this.graph, x ∈ g'.graph := by
    intro x hx
    rw [h.graph, h.split, List.map_append, h.listed]
    exact List.mem_append_left _ hx
  have hold : (m.targets (φ b)).map m.uuid = (m.targets (φ b)).map m'.uuid :=
    List.map_congr_left fun x hx => (uuid_of_core (h.old x (h.inside ha hbg x hx))).symm
  rw [h.targets b hbg, extend_eq_right_iff hnodup, hold, ← h.map_uuid hb hbg]
  exact (isPrefix_map_iff h.injOn (fun x hx => hthis x (h.inside ha hbg x hx)) (h.image hb hbg)).symm

end Assigned

/-- After the assignment the target is a copy of the source, which stays as it was. -/
def Replaces (this rhs : DAG) (m : Memory σ π) : Prop :=
  ∃ g' m', Returns (this.assign rhs) m g' m' ∧ g'.title = rhs.title ∧ g'.jsonConfig = rhs.jsonConfig ∧
    List.Forall₂ (fun b a => ∃ v w, Mirrored m m' b a v w) rhs.graph g'.graph ∧ g'.EdgesInside m' ∧
    (∀ a ∈ g'.graph, a ∉ rhs.graph) ∧ ∀ b ∈ rhs.graph, m'.vertices.cell b = m.vertices.cell b

omit [TaskStage σ] [TaskCallbackPlugin π] in
lemma Resembles.of_core {w' : DAGVertex σ π} (hr : Resembles v w) (hcore : w'.core = w.core) : Resembles v w' := by
  have huuid := congrArg DAGVertex.uuid hcore
  have hlabel := congrArg DAGVertex.label hcore
  have hstatus := congrArg DAGVertex.currentStatus hcore
  have htask := congrArg DAGVertex.task hcore
  exact ⟨huuid.trans hr.uuid, hlabel.trans hr.label, hstatus.trans hr.currentStatus,
    (congrArg (Option.map Task.uuid) htask).trans hr.taskUuid, (congrArg (Option.map Task.label) htask).trans hr.taskLabel⟩

/-- The vertices look the same, and the edges of `a` lead where the first ones of `b` lead. -/
def Agrees (m : Memory σ π) (b a : Addr) : Prop :=
  ∃ v w, m.vertex b = some v ∧ m.vertex a = some w ∧ Resembles v w ∧
    w.edges.map (fun e => e.connection.bind m.uuid) <+: v.edges.map fun e => e.connection.bind m.uuid

/-- The target's vertices agree with the first ones of the source, and are not the same objects. -/
def Overlaid (this rhs : DAG) (m : Memory σ π) : Prop :=
  ∃ first rest, rhs.graph = first ++ rest ∧ List.Forall₂ (Agrees m) first this.graph ∧
    ∀ a ∈ this.graph, a ∉ rhs.graph

omit [TaskStage σ] [TaskCallbackPlugin π] in
lemma Agrees.uuid (h : Agrees m b a) : m.uuid b = m.uuid a := by
  obtain ⟨v, w, hv, hw, hr, -⟩ := h
  rw [uuid_of_vertex hv, uuid_of_vertex hw, hr.uuid]

lemma Replaces.aligned (h : Replaces this rhs m) (ha : this.WellFormed m) (hb : rhs.WellFormed m) :
    ∃ first rest, Aligned this rhs m first rest := by
  obtain ⟨g', m', hr, -, -, hall, -, hapart, -⟩ := h
  obtain ⟨added, m₁, hr₁, h₁⟩ := addClones_extends ha hb.live (hb.nodup.map_on hb.uuids)
  obtain ⟨c, hc⟩ := Option.isSome_iff_exists.mp ha.config
  obtain ⟨d, hd⟩ := Option.isSome_iff_exists.mp hb.config
  simp only [assign, returns_bind] at hr
  obtain ⟨_, _, hr₁', _, m₂, hr₂, hlast⟩ := hr
  obtain ⟨rfl, rfl⟩ := hr₁'.unique hr₁
  obtain ⟨-, hf⟩ := cloneEachConnection_keeps h₁.wellFormed (List.Subset.refl _) hr₂
  simp only [hc, hd, returns_pure] at hlast
  obtain ⟨rfl, rfl⟩ := hlast
  have huuids : rhs.graph.map m.uuid = this.graph.map m.uuid ++ added.map m'.uuid := by
    have hold : this.graph.map m.uuid = this.graph.map m'.uuid :=
      List.map_congr_left fun a hat => by rw [hf.uuid, h₁.kept.uuid (vertex_lt (ha.live a hat))]
    rw [hold, ← List.map_append]
    refine map_eq_of_forall₂ hall ?_
    rintro b a ⟨v, w, hm⟩
    rw [uuid_of_vertex hm.original, uuid_of_vertex hm.copy, hm.uuid]
  obtain ⟨first, rest, hsplit, hfirst, -⟩ := List.map_eq_append_iff.mp huuids
  exact ⟨first, rest, hsplit, hfirst, fun a hat => hapart a (List.mem_append_left _ hat)⟩

namespace Assigned

lemma agrees (h : Assigned this rhs m first rest φ g' m') (ha : this.WellFormed m) (hb : rhs.WellFormed m)
    (hbf : b ∈ first) (hm : Mirrored m m' b (φ b) v w) : Agrees m b (φ b) := by
  have hbg : b ∈ rhs.graph := h.split ▸ List.mem_append_left _ hbf
  have hφ : φ b ∈ this.graph := h.listed ▸ List.mem_map_of_mem hbf
  have hφg : φ b ∈ g'.graph := h.graph ▸ List.mem_map_of_mem hbg
  obtain ⟨x, hx⟩ := Memory.live_iff.mp (ha.live _ hφ)
  have hcore : w.core = x.core := by simpa [hx, hm.copy] using h.old _ hφ
  refine ⟨v, x, hm.original, hx, ?_, ?_⟩
  · have hr : Resembles v w := ⟨hm.uuid, hm.label, hm.currentStatus, hm.taskUuid, hm.taskLabel⟩
    exact hr.of_core hcore.symm
  · rw [← edges_of_vertex hx, ← edges_of_vertex hm.original, ha.toClonable.edgeTargets hφ, hb.toClonable.edgeTargets hbg]
    refine (h.targets_iff ha hb hbg).mp ?_
    have htargets := hm.edgeTargets
    rw [← edges_of_vertex hm.original, ← edges_of_vertex hm.copy, hb.toClonable.edgeTargets hbg,
      h.wellFormed.toClonable.edgeTargets hφg, ← h.map_uuid hb hbg] at htargets
    exact map_injOn h.injOn (h.wellFormed.inside.closed _ hφg) (h.image hb hbg) htargets

lemma targets_eq (h : Assigned this rhs m first rest φ g' m') (ha : this.WellFormed m) (hb : rhs.WellFormed m)
    (hagrees : ∀ c ∈ first, Agrees m c (φ c)) (hbg : b ∈ rhs.graph) : m'.targets (φ b) = (m.targets b).map φ := by
  refine (h.targets_iff ha hb hbg).mpr ?_
  rcases List.mem_append.mp (h.split ▸ hbg) with hbf | hbr
  · obtain ⟨v, w, hv, hw, -, hedges⟩ := hagrees b hbf
    have hφ : φ b ∈ this.graph := h.listed ▸ List.mem_map_of_mem hbf
    rw [← edges_of_vertex hv, ← edges_of_vertex hw, ha.toClonable.edgeTargets hφ, hb.toClonable.edgeTargets hbg] at hedges
    exact hedges
  · rw [(h.new b hbr).1]
    exact List.nil_prefix

lemma mirrored (h : Assigned this rhs m first rest φ g' m') (ha : this.WellFormed m) (hb : rhs.WellFormed m)
    (hagrees : ∀ c ∈ first, Agrees m c (φ c)) (hbg : b ∈ rhs.graph) : ∃ v w, Mirrored m m' b (φ b) v w := by
  obtain ⟨v, hv⟩ := Memory.live_iff.mp (hb.live b hbg)
  obtain ⟨w, hw⟩ := Memory.live_iff.mp (h.wellFormed.live _ (h.graph ▸ List.mem_map_of_mem hbg))
  have hr : Resembles v w := by
    rcases List.mem_append.mp (h.split ▸ hbg) with hbf | hbr
    · obtain ⟨v', x, hv', hx, hr, -⟩ := hagrees b hbf
      obtain rfl := Option.some.inj (hv.symm.trans hv')
      have hcore := h.old (φ b) (h.listed ▸ List.mem_map_of_mem hbf)
      exact hr.of_core (by simpa [hx, hw] using hcore)
    · have hcore := (h.new b hbr).2 v hv
      exact .of_clone (by simpa [hw] using hcore)
  exact ⟨v, w, h.toRenames.mirrored hb (fun c hc => h.targets_eq ha hb hagrees hc) hbg hv hw hr⟩

end Assigned

theorem assign_replaces_iff (ha : this.WellFormed m) (hb : rhs.WellFormed m) :
    Replaces this rhs m ↔ Overlaid this rhs m := by
  constructor
  · intro h
    obtain ⟨first, rest, haligned⟩ := h.aligned ha hb
    obtain ⟨φ, g₁, m₁, hr₁, h₁⟩ := haligned.assigned ha hb
    obtain ⟨g', m', hr, -, -, hall, -⟩ := h
    obtain ⟨rfl, rfl⟩ := hr.unique hr₁
    refine ⟨first, rest, haligned.split, ?_, haligned.apart⟩
    rw [h₁.graph, List.forall₂_map_right_iff] at hall
    rw [← h₁.listed, List.forall₂_map_right_iff]
    refine List.forall₂_same.mpr fun b hbf => ?_
    have hbg : b ∈ rhs.graph := haligned.split ▸ List.mem_append_left _ hbf
    obtain ⟨v, w, hm⟩ := List.forall₂_same.mp hall b hbg
    exact h₁.agrees ha hb hbf hm
  · rintro ⟨first, rest, hsplit, hagrees, hapart⟩
    have huuids : first.map m.uuid = this.graph.map m.uuid := map_eq_of_forall₂ hagrees fun b a h => h.uuid
    obtain ⟨φ, g', m', hr, h⟩ := Aligned.assigned ⟨hsplit, huuids, hapart⟩ ha hb
    rw [← h.listed, List.forall₂_map_right_iff] at hagrees
    refine ⟨g', m', hr, h.title, h.jsonConfig, ?_, h.wellFormed.inside, ?_, ?_⟩
    · rw [h.graph, List.forall₂_map_right_iff]
      exact List.forall₂_same.mpr fun b hbg => h.mirrored ha hb (List.forall₂_same.mp hagrees) hbg
    · exact fun a hag hbg => h.apart a (.inl hbg) hag
    · exact fun b hbg => h.seen b (.inl hbg)

omit [TaskStage σ] [TaskCallbackPlugin π] in
lemma wellFormed_nil (title : String) (config : Document) : WellFormed ⟨[], title, some config⟩ m :=
  ⟨⟨⟨List.nodup_nil, by simp⟩, by simp [EdgesInside], by simp [DistinctUuids], rfl⟩, by simp [Counted], by simp [Simple]⟩

/-- The target has a vertex that looks like the first one of the source. -/
def overlaid : Memory Unit Unit :=
  { Sample.memory with vertices := Sample.memory.vertices.makeShared (Sample.vertex 1 [] 0 Sample.task₁) }

theorem assign_replaces_iff_sample : Replaces ⟨[2], "target", some .null⟩ Sample.dag overlaid := by
  have ha : WellFormed ⟨[2], "target", some .null⟩ overlaid :=
    ⟨⟨⟨by decide, by decide⟩, by decide, by decide, rfl⟩, by decide, by decide⟩
  have hb : Sample.dag.WellFormed overlaid :=
    ⟨⟨⟨by decide, by decide⟩, by decide, by decide, rfl⟩, by decide, by decide⟩
  have hfirst : Agrees overlaid 0 2 := ⟨_, _, rfl, rfl, ⟨rfl, rfl, rfl, rfl, rfl⟩, List.nil_prefix⟩
  exact (assign_replaces_iff ha hb).mpr ⟨[0], [1], rfl, .cons hfirst .nil, by decide⟩

/-- The source has no vertices and the target has: the second pass reads past the end. -/
theorem assign_replaces_fails :
    Sample.dag.WellFormed Sample.memory ∧ WellFormed ⟨[], "source", some .null⟩ Sample.memory ∧
      Stops (Sample.dag.assign ⟨[], "source", some .null⟩) Sample.memory .outOfRange ∧
      ¬ Replaces Sample.dag ⟨[], "source", some .null⟩ Sample.memory := by
  have hstops : Stops (Sample.dag.assign ⟨[], "source", some .null⟩) Sample.memory .outOfRange := rfl
  refine ⟨Sample.wellFormed, wellFormed_nil _ _, hstops, ?_⟩
  rintro ⟨g', m', hr, -⟩
  exact hr.not_stops hstops

end DagScheduler.Graphs.DAG

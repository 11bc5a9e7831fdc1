import DagScheduler.GraphProofs.EffectProofs
import DagScheduler.GraphProofs.LookupProofs

/-! `add_and_connect` adds what is missing before it tries the edge. The edge can only be refused
with a vertex already added when it is a loop. -/

namespace DagScheduler.Graphs.DAG

open Library Library.Programs Library.Digraphs Relation

variable {σ π : Type} {m m' m₁ m₂ m₃ : Memory σ π} {g g' g₁ g₂ : DAG} {a b : Addr} {v v1 v2 : DAGVertex σ π} {u : UUID}

inductive Adds (g : DAG) (m : Memory σ π) (v : DAGVertex σ π) : DAG → Memory σ π → Prop
  | kept (has : g.Has m v.uuid) : Adds g m v g m
  | new (missing : ¬ g.Has m v.uuid) : Adds g m v { g with graph := g.graph ++ [m.vertices.next] }
      { m with vertices := m.vertices.makeShared v }

lemma addVertex_adds (ho : g.Owned m) (v : DAGVertex σ π) :
    ∃ added g₁ v' m₁, Returns (g.addVertex v) m (added, g₁, v') m₁ ∧ Adds g m v g₁ m₁ := by
  by_cases has : g.Has m v.uuid
  · exact ⟨false, g, v, m, addVertex_kept ho has, .kept has⟩
  · exact ⟨true, _, _, _, addVertex_new ho has, .new has⟩

namespace Adds

lemma wellFormed (h : Adds g m v g₁ m₁) (hg : g.WellFormed m) (hv : v.Disconnected) : g₁.WellFormed m₁ := by
  cases h with
  | kept => exact hg
  | new missing => exact hg.addVertex hv fun a ha hau => missing ⟨a, ha, hau⟩

lemma connected (h : Adds g m v g₁ m₁) (hg : g.WellFormed m) (hv : v.Disconnected) :
    g₁.Connected m₁ = g.Connected m := by
  cases h with
  | kept => rfl
  | new => exact hg.toClonable.connected_addVertex hv

lemma eq_of_has (h : Adds g m v g₁ m₁) (has : g.Has m v.uuid) : g₁ = g ∧ m₁ = m := by
  cases h with
  | kept => exact ⟨rfl, rfl⟩
  | new missing => exact absurd has missing

lemma memory (h : Adds g m v g₁ m₁) : Kept m m₁ := by
  cases h with
  | kept => exact (Untouched.refl m).kept
  | new => exact kept_makeShared m v

lemma has_iff (h : Adds g m v g₁ m₁) (hg : g.WellFormed m) : g₁.Has m₁ u ↔ g.Has m u ∨ u = v.uuid := by
  cases h with
  | kept has =>
    constructor
    · exact .inl
    · rintro (h | rfl)
      · exact h
      · exact has
  | new =>
    have hnew := uuid_of_vertex (vertex_makeShared_self m v)
    have hsame : ∀ a ∈ g.graph, ({ m with vertices := m.vertices.makeShared v } : Memory σ π).uuid a = m.uuid a :=
      fun a ha => (kept_makeShared m v).uuid (vertex_lt (hg.live a ha))
    constructor
    · rintro ⟨a, ha, hau⟩
      rcases List.mem_append.mp ha with ha | ha
      · exact .inl ⟨a, ha, (hsame a ha).symm.trans hau⟩
      · rw [List.mem_singleton.mp ha, hnew, Option.some.injEq] at hau
        exact .inr hau.symm
    · rintro (⟨a, ha, hau⟩ | rfl)
      · exact ⟨a, List.mem_append_left _ ha, (hsame a ha).trans hau⟩
      · exact ⟨_, List.mem_append_right _ (List.mem_singleton_self _), hnew⟩

end Adds

def missing (g : DAG) (m : Memory σ π) (vs : List (DAGVertex σ π)) : List (DAGVertex σ π) :=
  vs.filter fun v => !decide (g.Has m v.uuid)

lemma Adds.added (h : Adds g m v g₁ m₁) : ∃ added, g₁.graph = g.graph ++ added ∧
    added.map (fun a => (m₁.vertex a).map DAGVertex.core) = (g.missing m [v]).map fun v => some v.core := by
  cases h with
  | kept has => exact ⟨[], by simp, by simp [missing, has]⟩
  | new missing =>
    refine ⟨[m.vertices.next], rfl, ?_⟩
    rw [List.map_singleton, vertex_makeShared_self]
    simp [DAG.missing, missing]

lemma missing_pair (h : Adds g m v1 g₁ m₁) (hg : g.WellFormed m) (hc : v1.uuid ≠ v2.uuid ∨ g.Has m v1.uuid) :
    g.missing m [v1, v2] = g.missing m [v1] ++ g₁.missing m₁ [v2] := by
  have hsame : g₁.Has m₁ v2.uuid ↔ g.Has m v2.uuid := by
    rw [h.has_iff hg, or_iff_left_iff_imp]
    intro heq
    rcases hc with hne | has
    · exact absurd heq.symm hne
    · rwa [heq]
  simp only [missing, List.filter_cons, List.filter_nil, decide_eq_decide.mpr hsame]
  split <;> simp

lemma Connects.core {reply : Reply σ π} (h : g.Connects a b m reply m') (c : Addr) :
    (m'.vertex c).map DAGVertex.core = (m.vertex c).map DAGVertex.core := by
  cases h with
  | refused _ _ _ untouched => rw [untouched.vertex]
  | present _ _ _ untouched => rw [untouched.vertex]
  | added m₁ _ _ untouched => rw [(Frame.addEdge m₁ a b).core, untouched.vertex]

/-- `g'` is `g` with the missing vertices and with an edge from the vertex of `v1` to that of `v2`. -/
structure Joined (g : DAG) (m : Memory σ π) (v1 v2 : DAGVertex σ π) (g' : DAG) (m' : Memory σ π) : Prop where
  wellFormed : g'.WellFormed m'
  acyclic : g'.Acyclic m'
  vertices : ∃ added, g'.graph = g.graph ++ added ∧
    added.map (fun a => (m'.vertex a).map DAGVertex.core) = (g.missing m [v1, v2]).map fun v => some v.core
  old : ∀ a ∈ g.graph, (m'.vertex a).map DAGVertex.core = (m.vertex a).map DAGVertex.core
  edges : ∃ a ∈ g'.graph, ∃ b ∈ g'.graph, m'.uuid a = some v1.uuid ∧ m'.uuid b = some v2.uuid ∧
    ∀ x y, g'.Connected m' x y ↔ g.Connected m x y ∨ (x = a ∧ y = b)

variable [TaskStage σ] [TaskCallbackPlugin π]

lemma addAndConnect_connects (hg : g.WellFormed m) (hac : g.Acyclic m) (h1 : v1.Disconnected) (h2 : v2.Disconnected) :
    ∃ g₁ m₁ g₂ m₂ a b reply m₃, Returns (g.addAndConnect v1 v2) m (reply, g₂) m₃ ∧ Adds g m v1 g₁ m₁ ∧
      Adds g₁ m₁ v2 g₂ m₂ ∧ a ∈ g₂.graph ∧ b ∈ g₂.graph ∧ m₂.uuid a = some v1.uuid ∧ m₂.uuid b = some v2.uuid ∧
      g₂.Connects a b m₂ reply m₃ := by
  obtain ⟨added₁, g₁, v1', m₁, hr₁, hadds₁⟩ := addVertex_adds hg.toOwned v1
  have hg₁ := hadds₁.wellFormed hg h1
  obtain ⟨added₂, g₂, v2', m₂, hr₂, hadds₂⟩ := addVertex_adds hg₁.toOwned v2
  have hg₂ := hadds₂.wellFormed hg₁ h2
  have hac₂ : g₂.Acyclic m₂ := by
    rw [DAG.Acyclic, hadds₂.connected hg₁ h2, hadds₁.connected hg h1]
    exact hac
  obtain ⟨a, ha, hau⟩ : g₂.Has m₂ v1.uuid := (hadds₂.has_iff hg₁).mpr (.inl ((hadds₁.has_iff hg).mpr (.inr rfl)))
  obtain ⟨b, hb, hbu⟩ : g₂.Has m₂ v2.uuid := (hadds₂.has_iff hg₁).mpr (.inr rfl)
  obtain ⟨va, hva⟩ := Memory.live_iff.mp (hg₂.live a ha)
  obtain ⟨vb, hvb⟩ := Memory.live_iff.mp (hg₂.live b hb)
  obtain ⟨reply, m₃, hr₃, hconnects⟩ := connect_connects hg₂ hac₂ ha hb (uuid_of_vertex hva) (uuid_of_vertex hvb)
  refine ⟨g₁, m₁, g₂, m₂, a, b, reply, m₃, ?_, hadds₁, hadds₂, ha, hb, hau, hbu, hconnects⟩
  have hfind₁ : Returns (g₂.findVertex v1.clone) m₂ (some a) m₂ := findVertex_self hg₂.toOwned hg₂.uuids ha hau
  have hfind₂ : Returns (g₂.findVertex v2.clone) m₂ (some b) m₂ := findVertex_self hg₂.toOwned hg₂.uuids hb hbu
  simp only [addAndConnect, returns_bind, returns_derefLocked, returns_pure]
  exact ⟨_, m₁, hr₁, _, m₂, hr₂, some a, m₂, hfind₁, some b, m₂, hfind₂, va, m₂, ⟨a, rfl, hva, rfl⟩, vb, m₂,
    ⟨b, rfl, hvb, rfl⟩, reply, m₃, hr₃, rfl, rfl⟩

/-- The call throws and leaves the graph as it was, or it adds what it should. -/
def AddsAtomically (g : DAG) (m : Memory σ π) (v1 v2 : DAGVertex σ π) : Prop :=
  ∃ reply g' m', Returns (g.addAndConnect v1 v2) m (reply, g') m' ∧
    ((∃ e, reply = .error e) → g' = g ∧ ∀ a ∈ g.graph, m'.vertex a = m.vertex a) ∧
    ∀ ret, reply = .ok ret → ret = true ∧ g.Joined m v1 v2 g' m'

section Adds

omit [TaskStage σ] [TaskCallbackPlugin π]

variable (hg : g.WellFormed m) (hadds₁ : Adds g m v1 g₁ m₁) (hadds₂ : Adds g₁ m₁ v2 g₂ m₂)
include hg hadds₁ hadds₂

lemma old_vertex (ha : a ∈ g.graph) : m₂.vertex a = m.vertex a := by
  have hlt := vertex_lt (hg.live a ha)
  exact (hadds₁.memory.trans hadds₂.memory).vertex hlt

lemma joined (hac : g.Acyclic m) (h1 : v1.Disconnected) (h2 : v2.Disconnected)
    (hc : v1.uuid ≠ v2.uuid ∨ g.Has m v1.uuid) (ha : a ∈ g₂.graph) (hb : b ∈ g₂.graph)
    (hau : m₂.uuid a = some v1.uuid) (hbu : m₂.uuid b = some v2.uuid)
    (hconnects : g₂.Connects a b m₂ (.ok true) m₃) : g.Joined m v1 v2 g₂ m₃ := by
  have hg₁ := hadds₁.wellFormed hg h1
  have hg₂ := hadds₂.wellFormed hg₁ h2
  have hconnected : g₂.Connected m₂ = g.Connected m := (hadds₂.connected hg₁ h2).trans (hadds₁.connected hg h1)
  have hac₂ : g₂.Acyclic m₂ := by rwa [DAG.Acyclic, hconnected]
  refine ⟨hconnects.wellFormed hg₂ ha hb, hconnects.acyclic hg₂ hac₂ ha hb, ?_, ?_, a, ha, b, hb,
    (uuid_of_core (hconnects.core a)).trans hau, (uuid_of_core (hconnects.core b)).trans hbu, fun x y => ?_⟩
  · obtain ⟨added₁, hgraph₁, hcore₁⟩ := hadds₁.added
    obtain ⟨added₂, hgraph₂, hcore₂⟩ := hadds₂.added
    refine ⟨added₁ ++ added₂, by rw [hgraph₂, hgraph₁, List.append_assoc], ?_⟩
    have hfirst : added₁.map (fun x => (m₂.vertex x).map DAGVertex.core) =
        added₁.map fun x => (m₁.vertex x).map DAGVertex.core := by
      apply List.map_congr_left
      intro x hx
      have hxg : x ∈ g₁.graph := hgraph₁ ▸ List.mem_append_right _ hx
      rw [hadds₂.memory.vertex (vertex_lt (hg₁.live x hxg))]
    rw [funext hconnects.core, List.map_append, hfirst, hcore₁, hcore₂, missing_pair hadds₁ hg hc, List.map_append]
  · intro x hx
    rw [hconnects.core, old_vertex hg hadds₁ hadds₂ hx]
  · rw [hconnects.connected hg₂ ha hb, hconnected]
    simp [withEdges]

/-- If the edge would close a cycle then nothing was missing. -/
lemma both_of_closes (h1 : v1.Disconnected) (h2 : v2.Disconnected) (hc : v1.uuid ≠ v2.uuid ∨ g.Has m v1.uuid)
    (hau : m₂.uuid a = some v1.uuid) (hbu : m₂.uuid b = some v2.uuid)
    (hcloses : Closes (g₂.Connected m₂) (a, b)) : g.Both m v1.uuid v2.uuid := by
  rw [hadds₂.connected (hadds₁.wellFormed hg h1) h2, hadds₁.connected hg h1] at hcloses
  have hold {x : Addr} (hx : x ∈ g.graph) : m₂.uuid x = m.uuid x := by
    rw [Memory.uuid, Memory.uuid, old_vertex hg hadds₁ hadds₂ hx]
  have hpath : ReflTransGen (g.Connected m) b a := hcloses
  rcases eq_or_ne a b with rfl | hne
  · have huuid : v1.uuid = v2.uuid := Option.some.inj (hau.symm.trans hbu)
    have has : g.Has m v1.uuid := hc.resolve_left (not_not.mpr huuid)
    exact ⟨has, huuid ▸ has⟩
  · rcases hpath.cases_head with heq | ⟨x, hbx, -⟩
    · exact absurd heq.symm hne
    rcases hpath.cases_tail with heq | ⟨y, -, hya⟩
    · exact absurd heq hne
    exact ⟨⟨a, hya.2.1, (hold hya.2.1).symm.trans hau⟩, b, hbx.1, (hold hbx.1).symm.trans hbu⟩

end Adds

lemma addAndConnect_loop (hg : g.WellFormed m) (hac : g.Acyclic m) (h1 : v1.Disconnected) (h2 : v2.Disconnected)
    (heq : v1.uuid = v2.uuid) (hnew : ¬ g.Has m v1.uuid) :
    ∃ e m', Returns (g.addAndConnect v1 v2) m (.error e, { g with graph := g.graph ++ [m.vertices.next] }) m' := by
  obtain ⟨g₁, m₁, g₂, m₂, a, b, reply, m₃, hr, hadds₁, hadds₂, ha, hb, hau, hbu, hconnects⟩ :=
    addAndConnect_connects hg hac h1 h2
  have hg₂ := hadds₂.wellFormed (hadds₁.wellFormed hg h1) h2
  obtain ⟨rfl, rfl⟩ := hadds₂.eq_of_has ((hadds₁.has_iff hg).mpr (.inr heq.symm))
  obtain rfl : a = b := hg₂.uuids a ha b hb (hau.trans ((congrArg some heq).trans hbu.symm))
  have hloop : Closes (g₂.Connected m₂) (a, a) := ReflTransGen.refl
  cases hadds₁ with
  | kept has => exact absurd has hnew
  | new =>
    cases hconnects with
    | refused e _ _ _ => exact ⟨e, m₃, hr⟩
    | present _ safe _ _ => exact absurd hloop safe
    | added _ safe _ _ => exact absurd hloop safe

theorem addAndConnect_atomic (hg : g.WellFormed m) (hac : g.Acyclic m) (h1 : v1.Disconnected) (h2 : v2.Disconnected) :
    (g.AddsAtomically m v1 v2 ↔ v1.uuid ≠ v2.uuid ∨ g.Has m v1.uuid) ∧
    (¬ g.AddsAtomically m v1 v2 →
      ∃ e m', Returns (g.addAndConnect v1 v2) m (.error e, { g with graph := g.graph ++ [m.vertices.next] }) m') := by
  have hiff : g.AddsAtomically m v1 v2 ↔ v1.uuid ≠ v2.uuid ∨ g.Has m v1.uuid := by
    constructor
    · rintro ⟨reply, g', m', hr, herror, -⟩
      by_contra hc
      obtain ⟨heq, hnew⟩ := not_or.mp hc
      obtain ⟨e, m₁, hr₁⟩ := addAndConnect_loop hg hac h1 h2 (not_not.mp heq) hnew
      obtain ⟨heqs, -⟩ := hr.unique hr₁
      obtain ⟨rfl, rfl⟩ := Prod.mk.inj heqs
      have hgraph := congrArg (fun h => h.graph.length) (herror ⟨e, rfl⟩).1
      simp at hgraph
    · intro hc
      obtain ⟨g₁, m₁, g₂, m₂, a, b, reply, m₃, hr, hadds₁, hadds₂, ha, hb, hau, hbu, hconnects⟩ :=
        addAndConnect_connects hg hac h1 h2
      have hjoined (hok : g₂.Connects a b m₂ (.ok true) m₃) : g.Joined m v1 v2 g₂ m₃ :=
        joined hg hadds₁ hadds₂ hac h1 h2 hc ha hb hau hbu hok
      refine ⟨reply, g₂, m₃, hr, ?_, ?_⟩
      · rintro ⟨e, rfl⟩
        cases hconnects with
        | refused _ _ closes untouched =>
          obtain ⟨has1, has2⟩ := both_of_closes hg hadds₁ hadds₂ h1 h2 hc hau hbu closes
          obtain ⟨rfl, rfl⟩ := hadds₁.eq_of_has has1
          obtain ⟨rfl, rfl⟩ := hadds₂.eq_of_has has2
          exact ⟨rfl, fun x _ => untouched.vertex x⟩
      · rintro ret rfl
        cases hconnects with
        | present _ safe old untouched => exact ⟨rfl, hjoined (.present _ safe old untouched)⟩
        | added _ safe new untouched => exact ⟨rfl, hjoined (.added _ safe new untouched)⟩
  refine ⟨hiff, fun hnot => ?_⟩
  rw [hiff, not_or, not_not] at hnot
  exact addAndConnect_loop hg hac h1 h2 hnot.1 hnot.2

theorem addAndConnect_atomic_sample :
    (Sample.dag.AddsAtomically Sample.memory (Sample.vertex 3 [] 0 Sample.task₁) (Sample.vertex 1 [] 0 Sample.task₁) ↔
      (Sample.vertex 3 [] 0 Sample.task₁).uuid ≠ (Sample.vertex 1 [] 0 Sample.task₁).uuid ∨
        Sample.dag.Has Sample.memory (Sample.vertex 3 [] 0 Sample.task₁).uuid) ∧
    (¬ Sample.dag.AddsAtomically Sample.memory (Sample.vertex 3 [] 0 Sample.task₁) (Sample.vertex 1 [] 0 Sample.task₁) →
      ∃ e m', Returns (Sample.dag.addAndConnect (Sample.vertex 3 [] 0 Sample.task₁) (Sample.vertex 1 [] 0 Sample.task₁))
        Sample.memory (.error e, { Sample.dag with graph := Sample.dag.graph ++ [Sample.memory.vertices.next] }) m') :=
  addAndConnect_atomic Sample.wellFormed Sample.acyclic ⟨rfl, rfl⟩ ⟨rfl, rfl⟩

/-- Two new vertices with one identifier: the first stays. -/
theorem addAndConnect_atomic_fails :
    Sample.dag.WellFormed Sample.memory ∧ Sample.dag.Acyclic Sample.memory ∧
    (Sample.vertex 3 [] 0 Sample.task₁).Disconnected ∧
    ∃ e g' m', Returns (Sample.dag.addAndConnect (Sample.vertex 3 [] 0 Sample.task₁) (Sample.vertex 3 [] 0 Sample.task₁))
      Sample.memory (.error e, g') m' ∧ Sample.dag.graph = [0, 1] ∧ g'.graph = [0, 1, 2] :=
  ⟨Sample.wellFormed, Sample.acyclic, ⟨rfl, rfl⟩, _, _, _, rfl, rfl, rfl⟩

end DagScheduler.Graphs.DAG

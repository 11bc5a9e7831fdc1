import DagScheduler.GraphProofs.ConnectProofs
import DagScheduler.GraphProofs.RemovalProofs

/-! Connecting every vertex of one label to every vertex of another. -/

namespace DagScheduler.Graphs.DAG

open Library Library.Programs Library.Digraphs Relation

variable {σ π : Type} {m m' m'' : Memory σ π} {g : DAG} {a b : Addr} {v w : DAGVertex σ π}
  {p : Addr × Addr} {ps : List (Addr × Addr)} {l l1 l2 : String}

def labelled (g : DAG) (m : Memory σ π) (l : String) : List Addr := g.graph.filter (HasLabel m l)

lemma returns_findAll (hg : g.Owned m) {r : List Addr} :
    Returns (g.findAllVerticiesWithLabel l) m r m' ↔ r = g.labelled m l ∧ m' = m :=
  Returns.iff (withLabel_returns hg.live)

lemma returns_labels {α : Type} (hg : g.Owned m) {k : List Addr → List Addr → Prog σ π α} {r : α} :
    Returns (do k (← g.findAllVerticiesWithLabel l1) (← g.findAllVerticiesWithLabel l2)) m r m' ↔
      Returns (k (g.labelled m l1) (g.labelled m l2)) m r m' := by
  simp only [returns_bind]
  constructor
  · rintro ⟨v1, _, h1, v2, _, h2, h⟩
    obtain ⟨rfl, rfl⟩ := (returns_findAll hg).mp h1
    obtain ⟨rfl, rfl⟩ := (returns_findAll hg).mp h2
    exact h
  · intro h
    exact ⟨_, m, (returns_findAll hg).mpr ⟨rfl, rfl⟩, _, m, (returns_findAll hg).mpr ⟨rfl, rfl⟩, h⟩

lemma mem_graph_of_labelled (h : a ∈ g.labelled m l) : a ∈ g.graph := (List.mem_filter.mp h).1

def labelPairs (g : DAG) (m : Memory σ π) (l1 l2 : String) : List (Addr × Addr) :=
  (g.labelled m l1).product (g.labelled m l2)

def Inside (g : DAG) (ps : List (Addr × Addr)) : Prop := ∀ p ∈ ps, p.1 ∈ g.graph ∧ p.2 ∈ g.graph

lemma inside_labelPairs : g.Inside (g.labelPairs m l1 l2) := by
  rintro ⟨a, b⟩ hp
  obtain ⟨ha, hb⟩ := List.mem_product.mp hp
  exact ⟨mem_graph_of_labelled ha, mem_graph_of_labelled hb⟩

inductive Attached (g : DAG) : List (Addr × Addr) → Memory σ π → Memory σ π → Prop
  | nil {s : Memory σ π} : Attached g [] s s
  | cons {q : Addr × Addr} {qs : List (Addr × Addr)} {s s₁ s₂ : Memory σ π} :
      g.Connects q.1 q.2 s (.ok true) s₁ → Attached g qs s₁ s₂ → Attached g (q :: qs) s s₂

namespace Attached

lemma wellFormed (h : g.Attached ps m m') (hg : g.WellFormed m) (hps : g.Inside ps) : g.WellFormed m' := by
  induction h with
  | nil => exact hg
  | cons hc _ ih =>
    obtain ⟨hp, hps⟩ := List.forall_mem_cons.mp hps
    exact ih (hc.wellFormed hg hp.1 hp.2) hps

lemma connected (h : g.Attached ps m m') (hg : g.WellFormed m) (hps : g.Inside ps) :
    g.Connected m' = withEdges (g.Connected m) ps := by
  induction h with
  | nil => exact withEdges_nil.symm
  | cons hc _ ih =>
    obtain ⟨hp, hps⟩ := List.forall_mem_cons.mp hps
    rw [ih (hc.wellFormed hg hp.1 hp.2) hps, hc.connected hg hp.1 hp.2, withEdges_withEdges]
    rfl

lemma safe (h : g.Attached ps m m') (hg : g.WellFormed m) (hps : g.Inside ps) :
    ∀ p ∈ ps, ¬ Closes (g.Connected m) p := by
  induction h with
  | nil => simp
  | cons hc _ ih =>
    obtain ⟨hp, hps⟩ := List.forall_mem_cons.mp hps
    refine List.forall_mem_cons.mpr ⟨hc.safe, fun q hq hclose => ?_⟩
    apply ih (hc.wellFormed hg hp.1 hp.2) hps q hq
    rw [hc.connected hg hp.1 hp.2]
    exact reach_withEdges hclose

lemma untouched (h : g.Attached ps m m') (hold : ∀ p ∈ ps, g.Connected m p.1 p.2) : Untouched m m' := by
  induction h with
  | nil => exact Untouched.refl _
  | cons hc _ ih =>
    obtain ⟨hp, hps⟩ := List.forall_mem_cons.mp hold
    cases hc with
    | present _ _ _ hm => exact hm.trans (ih fun q hq => hm.connected (g := g) ▸ hps q hq)
    | added _ _ new _ => exact absurd hp new

lemma core (h : g.Attached ps m m') (a : Addr) :
    (m'.vertex a).map DAGVertex.core = (m.vertex a).map DAGVertex.core := by
  induction h with
  | nil => rfl
  | cons hc _ ih =>
    rw [ih]
    cases hc with
    | present _ _ _ hm => rw [hm.vertex]
    | added m₁ _ _ hm => rw [(Frame.addEdge m₁ _ _).core, hm.vertex]

lemma cell (h : g.Attached ps m m') (hps : g.Inside ps) (ha : a ∉ g.graph) :
    m'.vertices.cell a = m.vertices.cell a := by
  induction h with
  | nil => rfl
  | @cons p _ _ _ _ hc _ ih =>
    obtain ⟨hp, hps⟩ := List.forall_mem_cons.mp hps
    rw [ih hps]
    cases hc with
    | present _ _ _ hm => exact hm.cell a
    | added m₁ _ _ hm =>
      rw [(Frame.addEdge m₁ p.1 p.2).cell a, hm.cell]
      rintro (rfl | rfl)
      · exact ha hp.1
      · exact ha hp.2

lemma labelled (h : g.Attached ps m m') (l : String) : g.labelled m' l = g.labelled m l := by
  apply List.filter_congr
  intro a _
  have hcore := congrArg (Option.any fun v => v.label == l) (h.core a)
  simpa only [Option.any_map, Function.comp_def, DAGVertex.core, HasLabel] using hcore

end Attached

/-! Whether vertices are connected already. -/

lemma returns_anyEdgeTo {es : List DAGEdge} {ret r : Bool} (hes : ∀ e ∈ es, ∃ c, m.connection e = some c) :
    Returns (anyEdgeTo b ret es) m r m' ↔ r = (ret || decide (b ∈ es.filterMap m.connection)) ∧ m' = m := by
  induction es generalizing ret with
  | nil => simp [anyEdgeTo]
  | cons e es ih =>
    obtain ⟨⟨c, hc⟩, hes⟩ := List.forall_mem_cons.mp hes
    simp only [anyEdgeTo, returns_bind, returns_lock_edge, and_assoc, exists_and_left, exists_eq_left, hc,
      ih hes, List.filterMap_cons, List.mem_cons, Bool.decide_or, Bool.or_assoc, beq_eq_decide,
      eq_comm (a := b)]

lemma areConnected_returns (hg : g.WellFormed m) (ha : a ∈ g.graph) (hb : b ∈ g.graph)
    (hv : m.uuid a = some v.uuid) (hw : m.uuid b = some w.uuid) :
    Returns (g.areConnected v w) m (decide (b ∈ m.targets a)) m := by
  obtain ⟨v', hv'⟩ := Memory.live_iff.mp (hg.live a ha)
  have hlive : ∀ e ∈ v'.edges, ∃ c, m.connection e = some c := by
    intro e he
    obtain ⟨c, -, -, hc⟩ := hg.toClonable.connection ha (edges_of_vertex hv' ▸ he)
    exact ⟨c, hc⟩
  simp only [areConnected, returns_bind]
  refine ⟨some a, m, findVertex_self hg.toOwned hg.uuids ha hv, some b, m,
    findVertex_self hg.toOwned hg.uuids hb hw, ?_⟩
  simp only [returns_bind, returns_deref]
  refine ⟨v', m, ⟨hv', rfl⟩, (returns_anyEdgeTo hlive).mpr ⟨?_, rfl⟩⟩
  rw [Bool.false_or, Memory.targets, edges_of_vertex hv']

lemma allPairsConnected_returns (hg : g.WellFormed m) (hps : g.Inside ps) (ret : Bool) :
    Returns (g.allPairsConnected ret ps) m (ret && ps.all fun p => decide (p.2 ∈ m.targets p.1)) m := by
  induction ps generalizing ret with
  | nil => simp [allPairsConnected]
  | cons p ps ih =>
    obtain ⟨hp, hps⟩ := List.forall_mem_cons.mp hps
    obtain ⟨v, hv⟩ := Memory.live_iff.mp (hg.live _ hp.1)
    obtain ⟨w, hw⟩ := Memory.live_iff.mp (hg.live _ hp.2)
    simp only [allPairsConnected, returns_bind, returns_deref]
    refine ⟨v, m, ⟨hv, rfl⟩, w, m, ⟨hw, rfl⟩, _, m,
      areConnected_returns hg hp.1 hp.2 (uuid_of_vertex hv) (uuid_of_vertex hw), ?_⟩
    rw [List.all_cons, ← Bool.and_assoc]
    exact ih hps _

lemma allAreConnectedByLabel_returns (hg : g.WellFormed m) (l1 l2 : String) :
    ∃ r, Returns (g.allAreConnectedByLabel l1 l2) m r m ∧ (r = true ↔
      (g.labelled m l1 ≠ [] ∧ g.labelled m l2 ≠ []) ∧
        ∀ a ∈ g.labelled m l1, ∀ b ∈ g.labelled m l2, g.Connected m a b) := by
  have hpairs := allPairsConnected_returns hg (inside_labelPairs : g.Inside (g.labelPairs m l1 l2))
    (!(g.labelled m l1).isEmpty && !(g.labelled m l2).isEmpty)
  refine ⟨_, (returns_labels hg.toOwned).mpr hpairs, ?_⟩
  simp only [Bool.and_eq_true, Bool.not_eq_true', List.isEmpty_eq_false_iff, List.all_eq_true,
    decide_eq_true_eq]
  apply and_congr_right
  rintro -
  constructor
  · intro h a ha b hb
    exact ⟨mem_graph_of_labelled ha, mem_graph_of_labelled hb, h (a, b) (List.mem_product.mpr ⟨ha, hb⟩)⟩
  · intro h p hp
    obtain ⟨ha, hb⟩ := List.mem_product.mp hp
    exact (h p.1 ha p.2 hb).2.2

variable [TaskStage σ] [TaskCallbackPlugin π]

lemma connect_deref (hg : g.WellFormed m) (hac : g.Acyclic m) (hp : p.1 ∈ g.graph ∧ p.2 ∈ g.graph) :
    ∃ reply m', Returns (do g.connect (← deref p.1) (← deref p.2)) m reply m' ∧
      g.Connects p.1 p.2 m reply m' := by
  obtain ⟨v, hv⟩ := Memory.live_iff.mp (hg.live _ hp.1)
  obtain ⟨w, hw⟩ := Memory.live_iff.mp (hg.live _ hp.2)
  obtain ⟨reply, m', hr, hc⟩ := connect_connects hg hac hp.1 hp.2 (uuid_of_vertex hv) (uuid_of_vertex hw)
  refine ⟨reply, m', ?_, hc⟩
  simp only [returns_bind, returns_deref]
  exact ⟨v, m, ⟨hv, rfl⟩, w, m, ⟨hw, rfl⟩, hr⟩

lemma returns_connectPairs_cons {ret : Bool} {reply : Reply σ π} :
    Returns (g.connectPairs ret (p :: ps)) m reply m' ↔
      ∃ r m₁, Returns (do g.connect (← deref p.1) (← deref p.2)) m r m₁ ∧
        Returns (match r with
          | .error e => pure (.error e)
          | .ok b => g.connectPairs (ret && b) ps) m₁ reply m' := by
  simp only [connectPairs, returns_bind]
  constructor
  · rintro ⟨v, s, hv, w, t, hw, r, m₁, hr, hrest⟩
    exact ⟨r, m₁, ⟨v, s, hv, w, t, hw, hr⟩, hrest⟩
  · rintro ⟨r, m₁, ⟨v, s, hv, w, t, hw, hr⟩, hrest⟩
    exact ⟨v, s, hv, w, t, hw, r, m₁, hr, hrest⟩

lemma connectPairs_returns (hg : g.WellFormed m) (hac : g.Acyclic m) (hps : g.Inside ps) :
    (∃ m', Returns (g.connectPairs true ps) m (.ok true) m' ∧ g.Attached ps m m') ∨
    ∃ pre p post e m₁ m', ps = pre ++ p :: post ∧ Returns (g.connectPairs true ps) m (.error e) m' ∧
      g.Attached pre m m₁ ∧ Untouched m₁ m' ∧ Closes (g.Connected m₁) p := by
  induction ps generalizing m with
  | nil => exact .inl ⟨m, returns_pure.mpr ⟨rfl, rfl⟩, .nil⟩
  | cons p ps ih =>
    obtain ⟨hp, hps⟩ := List.forall_mem_cons.mp hps
    obtain ⟨reply, m₁, hr, hc⟩ := connect_deref hg hac hp
    cases reply with
    | error e =>
      cases hc with
      | refused _ _ closes hm =>
        refine .inr ⟨[], p, ps, e, m, m₁, rfl, ?_, .nil, hm, closes⟩
        exact returns_connectPairs_cons.mpr ⟨_, m₁, hr, returns_pure.mpr ⟨rfl, rfl⟩⟩
    | ok b =>
      obtain rfl : b = true := by cases hc <;> rfl
      rcases ih (hc.wellFormed hg hp.1 hp.2) (hc.acyclic hg hac hp.1 hp.2) hps with
        ⟨m₂, hr₂, hat⟩ | ⟨pre, q, post, e, m₂, m₃, rfl, hr₂, hat, hm, hclose⟩
      · exact .inl ⟨m₂, returns_connectPairs_cons.mpr ⟨_, m₁, hr, hr₂⟩, .cons hc hat⟩
      · exact .inr ⟨p :: pre, q, post, e, m₂, m₃, rfl, returns_connectPairs_cons.mpr ⟨_, m₁, hr, hr₂⟩,
          .cons hc hat, hm, hclose⟩

lemma connectAllByLabel_returns (hg : g.WellFormed m) (hac : g.Acyclic m) (l1 l2 : String) :
    ((∀ p ∈ g.labelPairs m l1 l2, ¬ Closes (g.Connected m) p) ∧
      ∃ m', Returns (g.connectAllByLabel l1 l2) m (.ok true) m' ∧ g.Attached (g.labelPairs m l1 l2) m m') ∨
    ∃ pre p post e m₁ m', g.labelPairs m l1 l2 = pre ++ p :: post ∧ Closes (g.Connected m) p ∧
      Returns (g.connectAllByLabel l1 l2) m (.error e) m' ∧ g.Attached pre m m₁ ∧ Untouched m₁ m' := by
  have hin : g.Inside (g.labelPairs m l1 l2) := inside_labelPairs
  rcases connectPairs_returns hg hac hin with ⟨m', hr, hat⟩ | ⟨pre, p, post, e, m₁, m', heq, hr, hat, hm, hclose⟩
  · exact .inl ⟨hat.safe hg hin, m', (returns_labels hg.toOwned).mpr hr, hat⟩
  · have hpre : g.Inside pre := fun q hq => hin q (by simp [heq, hq])
    rw [hat.connected hg hpre, closes_row heq (hat.safe hg hpre)] at hclose
    exact .inr ⟨pre, p, post, e, m₁, m', heq, hclose, (returns_labels hg.toOwned).mpr hr, hat, hm⟩

/-! The three calls. -/

def LabelsClose (g : DAG) (m : Memory σ π) (l1 l2 : String) : Prop :=
  ∃ v ∈ g.labelled m l1, ∃ u ∈ g.labelled m l2, ReflTransGen (g.Connected m) u v

def Throws (p : Prog σ π (Reply σ π)) (m : Memory σ π) : Prop := ∃ e m', Returns p m (.error e) m'

omit [TaskStage σ] [TaskCallbackPlugin π] in
lemma labelsClose_iff : g.LabelsClose m l1 l2 ↔ ∃ p ∈ g.labelPairs m l1 l2, Closes (g.Connected m) p := by
  constructor
  · rintro ⟨v, hv, u, hu, hclose⟩
    exact ⟨(v, u), List.mem_product.mpr ⟨hv, hu⟩, hclose⟩
  · rintro ⟨⟨v, u⟩, hp, hclose⟩
    obtain ⟨hv, hu⟩ := List.mem_product.mp hp
    exact ⟨v, hv, u, hu, hclose⟩

lemma connectAllByLabel_throws (hg : g.WellFormed m) (hac : g.Acyclic m) :
    Throws (g.connectAllByLabel l1 l2) m ↔ g.LabelsClose m l1 l2 := by
  rw [labelsClose_iff]
  rcases connectAllByLabel_returns hg hac l1 l2 with
    ⟨hsafe, m', hr, -⟩ | ⟨pre, p, post, e, _, m', heq, hclose, hr, -, -⟩
  · refine iff_of_false ?_ (by simpa using hsafe)
    rintro ⟨e, m'', hr'⟩
    exact absurd (hr.unique hr').1 (by simp)
  · exact iff_of_true ⟨e, m', hr⟩ ⟨p, by simp [heq], hclose⟩

lemma noneWouldMakeCyclic_returns (hg : g.WellFormed m) (hac : g.Acyclic m) (hps : g.Inside ps) :
    ∃ r m', Returns (g.noneWouldMakeCyclic ps) m r m' ∧ Untouched m m' ∧
      (r = true ↔ ∀ p ∈ ps, ¬ Closes (g.Connected m) p) := by
  induction ps generalizing m with
  | nil => exact ⟨true, m, by simp [noneWouldMakeCyclic], Untouched.refl m, by simp⟩
  | cons p ps ih =>
    obtain ⟨hp, hps⟩ := List.forall_mem_cons.mp hps
    obtain ⟨v, hv⟩ := Memory.live_iff.mp (hg.live _ hp.1)
    obtain ⟨w, hw⟩ := Memory.live_iff.mp (hg.live _ hp.2)
    obtain ⟨c, m₁, hr, hm, hiff⟩ := connectionWouldMakeCyclic_closes hg hac hp.1 hp.2 hv hw
    have hstart {r : Bool} {m' : Memory σ π}
        (hrest : Returns (if !c then g.noneWouldMakeCyclic ps else pure false) m₁ r m') :
        Returns (g.noneWouldMakeCyclic (p :: ps)) m r m' := by
      simp only [noneWouldMakeCyclic, returns_bind, returns_deref]
      exact ⟨v, m, ⟨hv, rfl⟩, w, m, ⟨hw, rfl⟩, c, m₁, hr, hrest⟩
    cases c with
    | true =>
      refine ⟨false, m₁, hstart (by simp), hm, ?_⟩
      simp only [Bool.false_eq_true, List.forall_mem_cons, false_iff, not_and]
      exact fun hno => absurd (hiff.mp rfl) hno
    | false =>
      have hac₁ : g.Acyclic m₁ := by
        rw [DAG.Acyclic, hm.connected]
        exact hac
      obtain ⟨r, m₂, hr₂, hm₂, hiff₂⟩ := ih (hm.wellFormed hg) hac₁ hps
      refine ⟨r, m₂, hstart hr₂, hm.trans hm₂, ?_⟩
      have hsafe : ¬ Closes (g.Connected m) p := fun hclose => Bool.false_ne_true (hiff.mpr hclose)
      rw [hiff₂, hm.connected, List.forall_mem_cons]
      exact (and_iff_right hsafe).symm

lemma connectionWouldMakeCyclicByLabel_returns (hg : g.WellFormed m) (hac : g.Acyclic m) (l1 l2 : String) :
    ∃ r m', Returns (g.connectionWouldMakeCyclicByLabel l1 l2) m r m' ∧ Untouched m m' ∧
      (r = true ↔ ¬ g.LabelsClose m l1 l2) := by
  obtain ⟨r, m', hr, hm, hiff⟩ := noneWouldMakeCyclic_returns hg hac
    (inside_labelPairs : g.Inside (g.labelPairs m l1 l2))
  refine ⟨r, m', (returns_labels hg.toOwned).mpr hr, hm, ?_⟩
  rw [hiff, labelsClose_iff]
  simp only [not_exists, not_and]

/-- The check by label says what its name does, and what `connect_all_by_label` will do. -/
def PredictsByLabel (g : DAG) (m : Memory σ π) (l1 l2 : String) : Prop :=
  (∃ r m', Returns (g.connectionWouldMakeCyclicByLabel l1 l2) m r m' ∧ (r = true ↔ g.LabelsClose m l1 l2)) ∧
    (g.LabelsClose m l1 l2 ↔ Throws (g.connectAllByLabel l1 l2) m)

theorem connectionWouldMakeCyclicByLabel_inverted (hg : g.WellFormed m) (hac : g.Acyclic m) (l1 l2 : String) :
    ¬ g.PredictsByLabel m l1 l2 ∧
      (∃ r m', Returns (g.connectionWouldMakeCyclicByLabel l1 l2) m r m' ∧ Untouched m m' ∧
        (r = true ↔ ¬ g.LabelsClose m l1 l2)) ∧
      (g.LabelsClose m l1 l2 ↔ Throws (g.connectAllByLabel l1 l2) m) := by
  obtain ⟨r, m', hr, hm, hiff⟩ := connectionWouldMakeCyclicByLabel_returns hg hac l1 l2
  refine ⟨?_, ⟨r, m', hr, hm, hiff⟩, (connectAllByLabel_throws hg hac).symm⟩
  rintro ⟨⟨r', m'', hr', hiff'⟩, -⟩
  obtain ⟨rfl, rfl⟩ := hr'.unique hr
  exact iff_not_self (hiff'.symm.trans hiff)

theorem connectAllByLabel_complete (hg : g.WellFormed m) (hac : g.Acyclic m) (l1 l2 : String) :
    (Throws (g.connectAllByLabel l1 l2) m ↔
      ∃ u ∈ g.labelled m l2, ∃ v ∈ g.labelled m l1, ReflTransGen (g.Connected m) u v) ∧
    (¬ Throws (g.connectAllByLabel l1 l2) m →
      ∃ m', Returns (g.connectAllByLabel l1 l2) m (.ok true) m' ∧
        (∀ u v, g.Connected m' u v ↔ g.Connected m u v ∨ (u ∈ g.labelled m l1 ∧ v ∈ g.labelled m l2)) ∧
        g.WellFormed m' ∧
        (∀ a, (m'.vertex a).map DAGVertex.core = (m.vertex a).map DAGVertex.core) ∧
        (∀ a, a ∉ g.graph → m'.vertices.cell a = m.vertices.cell a) ∧
        ∃ r, Returns (g.allAreConnectedByLabel l1 l2) m' r m' ∧
          (r = true ↔ g.labelled m l1 ≠ [] ∧ g.labelled m l2 ≠ [])) := by
  constructor
  · rw [connectAllByLabel_throws hg hac]
    constructor
    · rintro ⟨v, hv, u, hu, hclose⟩
      exact ⟨u, hu, v, hv, hclose⟩
    · rintro ⟨u, hu, v, hv, hclose⟩
      exact ⟨v, hv, u, hu, hclose⟩
  · intro hno
    rcases connectAllByLabel_returns hg hac l1 l2 with
      ⟨-, m', hr, hat⟩ | ⟨_, _, _, e, _, m', -, -, hr, -, -⟩
    · have hg' := hat.wellFormed hg inside_labelPairs
      have hedges : ∀ u v, g.Connected m' u v ↔
          g.Connected m u v ∨ (u ∈ g.labelled m l1 ∧ v ∈ g.labelled m l2) := by
        intro u v
        rw [hat.connected hg inside_labelPairs]
        exact or_congr_right List.mem_product
      obtain ⟨r, hr', hiff⟩ := allAreConnectedByLabel_returns hg' l1 l2
      refine ⟨m', hr, hedges, hg', hat.core, fun a => hat.cell inside_labelPairs, r, hr', ?_⟩
      rw [hiff, hat.labelled, hat.labelled]
      exact and_iff_left fun a ha b hb => (hedges a b).mpr (.inr ⟨ha, hb⟩)
    · exact absurd ⟨e, m', hr⟩ hno

def AllOrNothing (g : DAG) (m : Memory σ π) (l1 l2 : String) : Prop :=
  ∀ e m', Returns (g.connectAllByLabel l1 l2) m (.error e) m' →
    ∀ a ∈ g.graph, m'.edges a = m.edges a ∧ m'.count a = m.count a

def NothingNew (g : DAG) (m : Memory σ π) (l1 l2 : String) : Prop :=
  ∀ pre p post, g.labelPairs m l1 l2 = pre ++ p :: post → Closes (g.Connected m) p →
    (∀ q ∈ pre, ¬ Closes (g.Connected m) q) → ∀ q ∈ pre, g.Connected m q.1 q.2

theorem connectAllByLabel_atomic_iff (hg : g.WellFormed m) (hac : g.Acyclic m) (l1 l2 : String) :
    g.AllOrNothing m l1 l2 ↔ g.NothingNew m l1 l2 := by
  rcases connectAllByLabel_returns hg hac l1 l2 with
    ⟨hsafe, m', hr, -⟩ | ⟨pre, p, post, e, m₁, m', heq, hclose, hr, hat, hm⟩
  · refine iff_of_true ?_ ?_
    · exact fun e m'' hr' => absurd (hr.unique hr').1 (by simp)
    · exact fun pre p post heq hclose => absurd hclose (hsafe p (by simp [heq]))
  · have hin : g.Inside pre := fun q hq => inside_labelPairs q (heq ▸ List.mem_append_left _ hq)
    have hsafe := hat.safe hg hin
    constructor
    · intro h pre' p' post' heq' hclose' hsafe' q hq
      obtain rfl := first_unique (heq.symm.trans heq') hclose hclose' hsafe hsafe'
      have hnew : g.Connected m' q.1 q.2 := by
        rw [hm.connected, hat.connected hg hin]
        exact .inr hq
      refine ⟨hnew.1, hnew.2.1, ?_⟩
      obtain ⟨c, hc, hcq, -⟩ := mem_targets.mp hnew.2.2
      rw [(h e m' hr q.1 hnew.1).1] at hc
      exact mem_targets.mpr ⟨c, hc, hcq, hg.live q.2 hnew.2.1⟩
    · intro h e' m'' hr' a _
      obtain ⟨-, rfl⟩ := hr.unique hr'
      have hall := (hat.untouched (h pre p post heq hclose hsafe)).trans hm
      exact ⟨hall.edges a, congrFun hall.count a⟩

end DagScheduler.Graphs.DAG

namespace DagScheduler.Graphs.Sample

open Library Library.Programs

def labels : Memory Unit Unit where
  vertices := ((SharedHeap.empty.makeShared { vertex 1 [] 0 task₁ with label := "from" }).makeShared
    { vertex 2 [] 1 task₁ with label := "from" }).makeShared
    { vertex 3 [⟨⟨9⟩, .initialized, some 1⟩] 0 task₁ with label := "to" }
  entropy n := ⟨BitVec.ofNat 128 (n + 10)⟩
  wrapped := false

def labelDag : DAG := ⟨[0, 1, 2], "sample", some .null⟩

lemma labelDag_wellFormed : labelDag.WellFormed labels where
  nodup := by decide
  live := by decide
  inside := by decide
  counted := by decide
  uuids := by decide
  simple := by decide
  config := rfl

lemma labelDag_acyclic : labelDag.Acyclic labels := by
  refine Library.Digraphs.acyclic_of_rank (fun a => 2 - a) ?_
  have hrank : ∀ a ∈ labelDag.graph, ∀ b ∈ labels.targets a, 2 - a < 2 - b := by decide
  exact fun u v huv => hrank u huv.1 v huv.2.2

end DagScheduler.Graphs.Sample

namespace DagScheduler.Graphs.DAG

open Library Library.Programs Sample

theorem connectionWouldMakeCyclicByLabel_inverted_sample :
    ¬ labelDag.PredictsByLabel labels "from" "to" ∧
      (∃ r m', Returns (labelDag.connectionWouldMakeCyclicByLabel "from" "to") labels r m' ∧
        Untouched labels m' ∧ (r = true ↔ ¬ labelDag.LabelsClose labels "from" "to")) ∧
      (labelDag.LabelsClose labels "from" "to" ↔ Throws (labelDag.connectAllByLabel "from" "to") labels) :=
  connectionWouldMakeCyclicByLabel_inverted labelDag_wellFormed labelDag_acyclic "from" "to"

/-- The edge from 2 to 1 is a path back, and the check answers false. -/
theorem connectionWouldMakeCyclicByLabel_fails :
    (∃ m', Returns (labelDag.connectionWouldMakeCyclicByLabel "from" "to") labels false m') ∧
      labelDag.LabelsClose labels "from" "to" := by
  have hclose : labelDag.LabelsClose labels "from" "to" :=
    ⟨1, by decide, 2, by decide, .single ⟨by decide, by decide, by decide⟩⟩
  obtain ⟨r, m', hr, -, hiff⟩ :=
    connectionWouldMakeCyclicByLabel_returns labelDag_wellFormed labelDag_acyclic "from" "to"
  obtain rfl : r = false := Bool.eq_false_iff.mpr (fun h => hiff.mp h hclose)
  exact ⟨⟨m', hr⟩, hclose⟩

theorem connectAllByLabel_complete_sample :
    Throws (labelDag.connectAllByLabel "to" "from") labels ↔
      ∃ u ∈ labelDag.labelled labels "from", ∃ v ∈ labelDag.labelled labels "to",
        Relation.ReflTransGen (labelDag.Connected labels) u v :=
  (connectAllByLabel_complete labelDag_wellFormed labelDag_acyclic "to" "from").1

theorem connectAllByLabel_atomic_iff_sample :
    labelDag.AllOrNothing labels "to" "from" ↔ labelDag.NothingNew labels "to" "from" :=
  connectAllByLabel_atomic_iff labelDag_wellFormed labelDag_acyclic "to" "from"

/-- The edge from 0 to 2 is added before the one from 1 to 2 is refused, and stays. -/
theorem connectAllByLabel_atomic_fails :
    ¬ labelDag.AllOrNothing labels "from" "to" ∧
      ∃ e m', Returns (labelDag.connectAllByLabel "from" "to") labels (.error e) m' ∧
        labels.edges 0 = [] ∧ m'.edges 0 ≠ [] := by
  have hrun : ((labelDag.connectAllByLabel "from" "to").run labels).toOption.any
      (fun r => !r.1.toBool && !(r.2.edges 0).isEmpty) = true := by decide +kernel
  obtain ⟨reply, m', hr, hq⟩ := exists_returns hrun
  have hedges : m'.edges 0 ≠ [] := by
    simp only [Bool.and_eq_true, Bool.not_eq_true', List.isEmpty_eq_false_iff] at hq
    exact hq.2
  cases reply with
  | ok b => simp [Except.toBool] at hq
  | error e =>
    refine ⟨fun h => hedges ?_, e, m', hr, by decide, hedges⟩
    rw [(h e m' hr 0 (by decide)).1]
    decide

end DagScheduler.Graphs.DAG

import DagScheduler.GraphProofs.CycleCheckProofs
import DagScheduler.Library.Insertions

/-! What `connect` answers on a well-formed graph without cycles, and what it leaves behind. -/

namespace DagScheduler.Graphs

open Library Library.Programs Library.Digraphs Relation

variable {σ π : Type} {m m' m'' : Memory σ π} {g : DAG} {a b c : Addr} {v w : DAGVertex σ π}

structure EdgeAdded (a b : Addr) (m m' : Memory σ π) : Prop where
  start : ∀ v, m.vertex a = some v → ∃ id, m'.vertex a =
    some { v with edges := v.edges ++ [⟨id, .initialized, some b⟩] }
  target : ∀ w, m.vertex b = some w → m'.vertex b =
    some { w with incommingEdgeCount := w.incommingEdgeCount + 1 }
  rest : ∀ c, c ≠ a → c ≠ b → m'.vertices.cell c = m.vertices.cell c
  owners : ∀ c, m'.vertices.owners c = m.vertices.owners c
  wrapped : m'.wrapped = m.wrapped

lemma EdgeAdded.of_addEdge (hm : Untouched m m') (hab : a ≠ b) : EdgeAdded a b m (m'.addEdge a b) where
  start v hv := by
    refine ⟨m'.entropy 0, ?_⟩
    have hadd : ({ m' with entropy := fun n => m'.entropy (n + 1) }.add b).vertex a = some v := by
      rw [vertex_add, if_neg hab]
      exact (hm.vertex a).trans hv
    rw [Memory.addEdge, vertex_modifyVertex, if_pos rfl, hadd]
    rfl
  target w hw := by
    have hadd : ({ m' with entropy := fun n => m'.entropy (n + 1) }.add b).vertex b =
        some w.incremented := by
      rw [vertex_add, if_pos rfl]
      exact congrArg (Option.map DAGVertex.incremented) ((hm.vertex b).trans hw)
    rw [Memory.addEdge, vertex_modifyVertex, if_neg hab.symm, hadd]
    rfl
  rest c hca hcb := ((Frame.addEdge m' a b).cell c (by simp [hca, hcb])).trans (hm.cell c)
  owners c := ((Frame.addEdge m' a b).owners c).trans (hm.owners c)
  wrapped := hm.wrapped

lemma Untouched.wellFormed (hm : Untouched m m') (hg : g.WellFormed m) : g.WellFormed m' where
  nodup := hg.nodup
  live a ha := (hm.live a).mpr (hg.live a ha)
  inside a ha e he := hg.inside a ha e (hm.edges a ▸ he)
  uuids a ha b hb hab := hg.uuids a ha b hb (by rwa [hm.uuid, hm.uuid] at hab)
  config := hg.config
  counted a ha := by
    rw [hm.count, hm.targets]
    exact hg.counted a ha
  simple a ha := by
    rw [hm.targets]
    exact hg.simple a ha

lemma Untouched.connected (hm : Untouched m m') : g.Connected m' = g.Connected m := by
  funext a b
  simp only [DAG.Connected, hm.targets]

namespace DAG

lemma WellFormed.addEdge (hg : g.WellFormed m) (ha : a ∈ g.graph) (hb : b ∈ g.graph)
    (hnew : b ∉ m.targets a) : g.WellFormed (m.addEdge a b) where
  toOwned := hg.toOwned.frame (Frame.addEdge m a b)
  inside := hg.inside.addEdge (hg.live a ha) hb
  uuids := hg.uuids.frame (Frame.addEdge m a b)
  config := hg.config
  counted := hg.counted.addEdge hg.toOwned ha (hg.live b hb)
  simple := hg.simple.addEdge (hg.live a ha) (hg.live b hb) hnew

lemma connected_addEdge (hg : g.WellFormed m) (ha : a ∈ g.graph) (hb : b ∈ g.graph) :
    g.Connected (m.addEdge a b) = withEdges (g.Connected m) [(a, b)] := by
  funext u v
  simp only [Connected, withEdges, targets_addEdge (hg.live a ha) (hg.live b hb), List.mem_singleton,
    Prod.mk.injEq]
  by_cases hua : u = a
  · subst hua
    simp only [Function.update_self, List.mem_append, List.mem_singleton, true_and, eq_iff_iff]
    constructor
    · rintro ⟨hu, hv, h | h⟩
      · exact .inl ⟨hu, hv, h⟩
      · exact .inr h
    · rintro (⟨hu, hv, h⟩ | rfl)
      · exact ⟨hu, hv, .inl h⟩
      · exact ⟨ha, hb, .inr rfl⟩
  · simp [hua]

lemma WellFormed.resolvedWith (hg : g.WellFormed m) :
    g.resolvedWith m a b = withEdges (g.Connected m) [(a, b)] := by
  funext u v
  have hedge : Edge g.graph (g.resolved m) u v ↔ g.Connected m u v := by
    rw [connected_iff hg.inside.closed]
    exact and_congr_right fun hu => by rw [hg.toClonable.resolved hu]
  simp [DAG.resolvedWith, withEdges, hedge]

variable [TaskStage σ] [TaskCallbackPlugin π]

lemma connectionWouldMakeCyclic_closes (hg : g.WellFormed m) (hac : g.Acyclic m) (ha : a ∈ g.graph)
    (hb : b ∈ g.graph) (hv : m.vertex a = some v) (hw : m.vertex b = some w) :
    ∃ r m', Returns (g.connectionWouldMakeCyclic v w) m r m' ∧ Untouched m m' ∧
      (r = true ↔ Closes (g.Connected m) (a, b)) := by
  obtain ⟨r, m', hr, hm, hiff⟩ := connectionWouldMakeCyclic_returns hg.toOwned hg.uuids
    hg.toClonable.known hg.config hg.toClonable.resolves ha hb hv hw
  refine ⟨r, m', hr, hm, ?_⟩
  rw [hg.resolvedWith, hac.withEdge_iff, ← not_iff_not, not_not] at hiff
  rw [← hiff]
  simp

inductive Connects (g : DAG) (a b : Addr) (m : Memory σ π) : Reply σ π → Memory σ π → Prop
  | refused (e : DAGException σ π) (m' : Memory σ π) (closes : Closes (g.Connected m) (a, b))
      (untouched : Untouched m m') : Connects g a b m (.error e) m'
  | present (m' : Memory σ π) (safe : ¬ Closes (g.Connected m) (a, b)) (old : g.Connected m a b)
      (untouched : Untouched m m') : Connects g a b m (.ok true) m'
  | added (m' : Memory σ π) (safe : ¬ Closes (g.Connected m) (a, b)) (new : ¬ g.Connected m a b)
      (untouched : Untouched m m') : Connects g a b m (.ok true) (m'.addEdge a b)

section Connects

omit [TaskStage σ] [TaskCallbackPlugin π]

variable {reply : Reply σ π}

lemma Connects.wellFormed (h : g.Connects a b m reply m') (hg : g.WellFormed m) (ha : a ∈ g.graph)
    (hb : b ∈ g.graph) : g.WellFormed m' := by
  cases h with
  | refused _ _ _ untouched => exact untouched.wellFormed hg
  | present _ _ _ untouched => exact untouched.wellFormed hg
  | added m₁ _ new untouched =>
    apply (untouched.wellFormed hg).addEdge ha hb
    rw [untouched.targets]
    exact fun h => new ⟨ha, hb, h⟩

lemma Connects.safe (h : g.Connects a b m (.ok true) m') : ¬ Closes (g.Connected m) (a, b) := by
  cases h <;> assumption

lemma Connects.connected (h : g.Connects a b m (.ok true) m') (hg : g.WellFormed m) (ha : a ∈ g.graph)
    (hb : b ∈ g.graph) : g.Connected m' = withEdges (g.Connected m) [(a, b)] := by
  cases h with
  | present _ _ old untouched =>
    rw [untouched.connected]
    funext u v
    simp only [withEdges, List.mem_singleton, Prod.mk.injEq, eq_iff_iff, iff_self_or]
    rintro ⟨rfl, rfl⟩
    exact old
  | added m₁ _ _ untouched => rw [connected_addEdge (untouched.wellFormed hg) ha hb, untouched.connected]

lemma Connects.acyclic (h : g.Connects a b m (.ok true) m') (hg : g.WellFormed m) (hac : g.Acyclic m)
    (ha : a ∈ g.graph) (hb : b ∈ g.graph) : g.Acyclic m' := by
  rw [DAG.Acyclic, h.connected hg ha hb]
  exact hac.withEdge_iff.mpr h.safe

end Connects

omit [TaskStage σ] [TaskCallbackPlugin π] in
lemma find_missing {u : UUID} (hmiss : ∀ a ∈ g.graph, m.uuid a ≠ some u) :
    g.graph.find? (fun a => m.uuid a = some u) = none :=
  List.find?_eq_none.mpr fun a ha => by simpa using hmiss a ha

lemma connect_missing (ho : g.Owned m)
    (hmiss : (∀ a ∈ g.graph, m.uuid a ≠ some v.uuid) ∨ ∀ b ∈ g.graph, m.uuid b ≠ some w.uuid) :
    Returns (g.connect v w) m (.ok false) m := by
  have hfind (x : DAGVertex σ π) := (returns_findVertex (v := x) ho).mpr ⟨rfl, rfl⟩
  rw [connect, returns_bind]
  refine ⟨_, m, hfind v, returns_bind.mpr ⟨_, m, hfind w, ?_⟩⟩
  rcases hmiss with h | h
  · rw [find_missing h]
    simp
  · rw [find_missing h]
    cases g.graph.find? (fun a => m.uuid a = some v.uuid) <;> simp

/-- What `connect` does once both vertices are found and the edge was tried. -/
lemma connect_checked {v' w' : DAGVertex σ π} {r : Bool} {reply : Reply σ π} (ho : g.Owned m) (hu : g.DistinctUuids m)
    (ha : a ∈ g.graph) (hb : b ∈ g.graph) (hv : m.uuid a = some v.uuid) (hw : m.uuid b = some w.uuid)
    (hv' : m.vertex a = some v') (hw' : m.vertex b = some w')
    (hcheck : Returns (g.connectionWouldMakeCyclic v' w') m r m')
    (hrest : Returns (if r then do pure (.error ⟨← deref a, ← deref b⟩) else do
      let _ ← DAGVertex.connect a b
      pure (.ok true) : Prog σ π (Reply σ π)) m' reply m'') : Returns (g.connect v w) m reply m'' := by
  simp only [connect, returns_bind]
  refine ⟨some a, m, findVertex_self ho hu ha hv, some b, m, findVertex_self ho hu hb hw, ?_⟩
  simp only [ha, hb, and_self, if_true, returns_bind, returns_deref]
  exact ⟨v', m, ⟨hv', rfl⟩, w', m, ⟨hw', rfl⟩, r, m', hcheck, hrest⟩

lemma connect_connects (hg : g.WellFormed m) (hac : g.Acyclic m) (ha : a ∈ g.graph) (hb : b ∈ g.graph)
    (hv : m.uuid a = some v.uuid) (hw : m.uuid b = some w.uuid) :
    ∃ reply m', Returns (g.connect v w) m reply m' ∧ g.Connects a b m reply m' := by
  obtain ⟨v', hv'⟩ := Memory.live_iff.mp (hg.live a ha)
  obtain ⟨w', hw'⟩ := Memory.live_iff.mp (hg.live b hb)
  obtain ⟨r, m₁, hcheck, hm, hiff⟩ := connectionWouldMakeCyclic_closes hg hac ha hb hv' hw'
  have hstart {reply : Reply σ π} {m' : Memory σ π} : _ → Returns (g.connect v w) m reply m' :=
    connect_checked hg.toOwned hg.uuids ha hb hv hw hv' hw' hcheck
  have hva : m₁.vertex a = some v' := (hm.vertex a).trans hv'
  have hwb : m₁.vertex b = some w' := (hm.vertex b).trans hw'
  cases r with
  | true =>
    refine ⟨.error ⟨v', w'⟩, m₁, hstart ?_, .refused _ _ (hiff.mp rfl) hm⟩
    simp only [if_true, returns_bind, returns_deref, returns_pure]
    exact ⟨v', m₁, ⟨hva, rfl⟩, w', m₁, ⟨hwb, rfl⟩, rfl, rfl⟩
  | false =>
    have hsafe : ¬ Closes (g.Connected m) (a, b) := fun hc => Bool.false_ne_true (hiff.mpr hc)
    have hspec := connect_returns ((hm.live a).mpr (hg.live a ha)) hwb
    have hany := any_leadsTo_iff (hm.wellFormed hg).inside.closed
      (hm.wellFormed hg).uuids ha hb hwb
    rw [hm.targets] at hany
    by_cases hold : b ∈ m.targets a
    · rw [if_pos (hany.mpr hold)] at hspec
      refine ⟨.ok true, m₁, hstart ?_, .present _ hsafe ⟨ha, hb, hold⟩ hm⟩
      simp only [Bool.false_eq_true, if_false, returns_bind, returns_pure]
      exact ⟨false, m₁, hspec, trivial, rfl⟩
    · rw [if_neg (fun h => hold (hany.mp h))] at hspec
      refine ⟨.ok true, m₁.addEdge a b, hstart ?_, .added _ hsafe (fun h => hold h.2.2) hm⟩
      simp only [Bool.false_eq_true, if_false, returns_bind, returns_pure]
      exact ⟨true, m₁.addEdge a b, hspec, trivial, rfl⟩

/-- `connect` from `a` to `b` does what it should: it refuses exactly the edges that close a cycle. -/
structure ConnectExact (g : DAG) (a b : Addr) (m : Memory σ π) (reply : Reply σ π) (m' : Memory σ π) :
    Prop where
  throws : (∃ e, reply = .error e) ↔ ReflTransGen (g.Connected m) b a
  unchanged : (∃ e, reply = .error e) → Untouched m m'
  returns : ¬ ReflTransGen (g.Connected m) b a → reply = .ok true
  edges : ¬ ReflTransGen (g.Connected m) b a →
    ∀ u v, g.Connected m' u v ↔ g.Connected m u v ∨ (u = a ∧ v = b)
  present : ¬ ReflTransGen (g.Connected m) b a → g.Connected m a b → Untouched m m'
  added : ¬ ReflTransGen (g.Connected m) b a → ¬ g.Connected m a b → EdgeAdded a b m m'

omit [TaskStage σ] [TaskCallbackPlugin π] in
lemma Connects.exact {reply : Reply σ π} (h : g.Connects a b m reply m') (hg : g.WellFormed m)
    (ha : a ∈ g.graph) (hb : b ∈ g.graph) : g.ConnectExact a b m reply m' := by
  have hedges (hok : g.Connects a b m (.ok true) m') (u v : Addr) :
      g.Connected m' u v ↔ g.Connected m u v ∨ (u = a ∧ v = b) := by
    rw [hok.connected hg ha hb]
    simp [withEdges]
  cases h with
  | refused e _ closes untouched =>
    exact ⟨iff_of_true ⟨e, rfl⟩ closes, fun _ => untouched, fun h => absurd closes h,
      fun h => absurd closes h, fun h => absurd closes h, fun h => absurd closes h⟩
  | present _ safe old untouched =>
    exact ⟨iff_of_false (by simp) safe, by simp, fun _ => rfl, fun _ => hedges (.present _ safe old untouched), fun _ _ => untouched,
      fun _ h => absurd old h⟩
  | added m₁ safe new untouched =>
    refine ⟨iff_of_false (by simp) safe, by simp, fun _ => rfl, fun _ => hedges (.added _ safe new untouched),
      fun _ h => absurd h new, ?_⟩
    rintro - -
    apply EdgeAdded.of_addEdge untouched
    rintro rfl
    exact safe ReflTransGen.refl

theorem connect_exact (hg : g.WellFormed m) (hac : g.Acyclic m) (v1 v2 : DAGVertex σ π) :
    ((∀ a ∈ g.graph, m.uuid a ≠ some v1.uuid) ∨ (∀ b ∈ g.graph, m.uuid b ≠ some v2.uuid) →
      Returns (g.connect v1 v2) m (.ok false) m) ∧
    ∀ a ∈ g.graph, m.uuid a = some v1.uuid → ∀ b ∈ g.graph, m.uuid b = some v2.uuid →
      ∃ reply m', Returns (g.connect v1 v2) m reply m' ∧ g.ConnectExact a b m reply m' := by
  constructor
  · exact connect_missing hg.toOwned
  · intro a ha h1 b hb h2
    obtain ⟨reply, m', hr, hc⟩ := connect_connects hg hac ha hb h1 h2
    exact ⟨reply, m', hr, hc.exact hg ha hb⟩

theorem connect_exact_sample :
    ∃ reply m', Returns (Sample.dag.connect (Sample.vertex 2 [] 1 Sample.task₂)
      (Sample.vertex 1 [] 0 Sample.task₁)) Sample.memory reply m' ∧
      Sample.dag.ConnectExact 1 0 Sample.memory reply m' :=
  (connect_exact Sample.wellFormed Sample.acyclic _ _).2 1 (by decide) (by decide) 0 (by decide) (by decide)

end DAG

end DagScheduler.Graphs

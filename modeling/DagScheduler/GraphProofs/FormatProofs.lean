import DagScheduler.Graphs.Algorithms
import DagScheduler.GraphProofs.SerializationProofs

/-! The connections of a document. The published format has them; `make_dag` does not read them. -/

namespace DagScheduler.Graphs.YAMLDagDeserializer

open Library Library.Programs

variable {ν L σ π : Type} [YAMLNode ν] {dll : Dll L σ π} {m m' : Memory σ π} {g g' : DAG} {e : ν} {dagNode : ν}

section Format

variable (dagNode)

def connections : Except Exception (List ν) := do
  match ← find dagNode dagKey with
  | none => pure []
  | some dagDefinitionNode =>
    match ← find dagDefinitionNode "Connections" with
    | none => pure []
    | some connectionsNode => asVector connectionsNode

def connectionEntries : List ν := (connections dagNode).toOption.getD []

def uuidAt (key : String) (e : ν) : Option UUID := do
  let uuidNode ← (find e key).toOption.join
  UUID.ofString (← (asString uuidNode).toOption)

def Asks (u v : UUID) : Prop :=
  ∃ c ∈ connectionEntries dagNode, uuidAt "From" c = some u ∧ uuidAt "To" c = some v

variable (dll)

structure Loads (e : ν) : Prop where
  name : ∃ name, optionalString e nameKey = .ok name
  uuid : ∃ uuidStr uuid, (do asString (← require e uuidKey)) = .ok uuidStr ∧ parseUuid uuidStr = .ok uuid
  task : find e taskKey = .ok none ∨
    ∃ taskNode, find e taskKey = .ok (some taskNode) ∧ ∀ u, ∃ task, makeTask dll u taskNode = .ok task

/-- A document of the format. -/
structure Published : Prop where
  root : ∃ dagDefinitionNode verticesNode, find dagNode dagKey = .ok (some dagDefinitionNode) ∧
    YAMLNode.isMap dagDefinitionNode = true ∧
    (∃ config, optionalJson dagDefinitionNode configurationKey "dag configuration" = .ok config) ∧
    (∃ title, optionalString dagDefinitionNode titleKey = .ok title) ∧
    find dagDefinitionNode verticesKey = .ok (some verticesNode) ∧ YAMLNode.isSequence verticesNode = true ∧
    asVector verticesNode = .ok (entries dagNode)
  loads : ∀ e ∈ entries dagNode, Loads dll e
  distinct : ((entries dagNode).map entryUuid).Nodup
  declared : ∀ c ∈ connectionEntries dagNode, ∃ u v, uuidAt "From" c = some u ∧ uuidAt "To" c = some v ∧
    some u ∈ (entries dagNode).map entryUuid ∧ some v ∈ (entries dagNode).map entryUuid

end Format

def Points (g : DAG) (m : Memory σ π) (u v : UUID) : Prop :=
  ∃ a b, g.Connected m a b ∧ m.uuid a = some u ∧ m.uuid b = some v

variable [TaskStage σ] [TaskCallbackPlugin π]

/-- In the batches of `process_dag` an earlier one has `u` where a later one has `v`. -/
def Ordered (g : DAG) (m : Memory σ π) (u v : UUID) : Prop :=
  ∀ out queue m', Returns (processDag false g.graph.length g [] []) m (true, out, queue) m' →
    ∃ (i j : ℕ) (batch batch' : List (DAGVertex σ π)), i < j ∧ out[i]? = some batch ∧ out[j]? = some batch' ∧
      (∃ x ∈ batch, x.uuid = u) ∧ ∃ x ∈ batch', x.uuid = v

structure Realizes (dll : Dll L σ π) (dagNode : ν) (m : Memory σ π) : Prop where
  built : Digraphs.Acyclic (Asks dagNode) → ∃ g m', Returns (makeDag dll dagNode) m g m' ∧
    (∀ u v, Points g m' u v ↔ Asks dagNode u v) ∧ ∀ u v, Asks dagNode u v → Ordered g m' u v
  rejected : ¬ Digraphs.Acyclic (Asks dagNode) → ∃ e, (makeDag dll dagNode).run m = .error (.exception e)

omit [TaskStage σ] [TaskCallbackPlugin π] in
lemma optionalTask_returns (he : Loads dll e) :
    ∃ task entropy, Returns (optionalTask dll e) m task { m with entropy := entropy } := by
  rcases he.task with hnone | ⟨taskNode, hsome, hload⟩
  · refine ⟨none, m.entropy, ?_⟩
    simp only [optionalTask, returns_bind, returns_attempt]
    exact ⟨none, m, ⟨hnone, rfl⟩, by simp⟩
  · let u : TaskUuid := if h : (m.entropy 0).isInitialized then ⟨m.entropy 0, h⟩ else ⟨⟨1⟩, rfl⟩
    obtain ⟨task, htask⟩ := hload u
    refine ⟨some task, fun n => m.entropy (n + 1), ?_⟩
    simp only [optionalTask, returns_bind, returns_attempt]
    refine ⟨some taskNode, m, ⟨hsome, rfl⟩, ?_⟩
    simp only [returns_bind, returns_attempt, returns_pure, generateTaskUuid, returns_mapFault, returns_uuidGenerate]
    exact ⟨u, _, ⟨_, _, ⟨rfl, rfl⟩, rfl, rfl⟩, task, _, ⟨htask, rfl⟩, rfl, rfl⟩

omit [YAMLNode ν] [TaskStage σ] [TaskCallbackPlugin π] in
lemma addVertex_total {v : DAGVertex σ π} (ho : g.Owned m) : ∃ r m', Returns (g.addVertex v) m r m' := by
  simp only [DAG.returns_addVertex ho]
  split_ifs
  · exact ⟨_, _, rfl, rfl⟩
  · exact ⟨_, _, rfl, rfl⟩

omit [TaskStage σ] [TaskCallbackPlugin π] in
lemma makeVertex_returns {m₀ : Memory σ π} {read : List ν} (h : Loaded m₀ read g m) (he : Loads dll e) :
    ∃ g' m', Returns (makeVertex dll g e) m g' m' := by
  obtain ⟨name, hname⟩ := he.name
  obtain ⟨uuidStr, uuid, hstr, huuid⟩ := he.uuid
  obtain ⟨task, entropy, htask⟩ := optionalTask_returns (m := m) he
  obtain ⟨⟨added, g', rest⟩, m', hadd⟩ :=
    addVertex_total (v := ⟨uuid, .initialized, name, [], 0, task⟩) (h.entropy entropy).owned
  refine ⟨g', m', ?_⟩
  simp only [makeVertex, returns_bind, returns_attempt, returns_mapFault, returns_pure]
  exact ⟨name, m, ⟨hname, rfl⟩, uuidStr, m, ⟨hstr, rfl⟩, uuid, m, ⟨huuid, rfl⟩, task, _, htask, _, m', hadd, rfl, rfl⟩

omit [TaskStage σ] [TaskCallbackPlugin π] in
lemma entries_return {es : List ν} (hes : ∀ e ∈ es, Loads dll e) (title : String) (config : Document) :
    ∃ g m', Returns (es.foldlM (makeVertex dll) ⟨[], title, some config⟩) m g m' := by
  let I : List ν → DAG → Memory σ π → Prop := fun rest g m' => ∃ read, es = read ++ rest ∧ Loaded m read g m'
  obtain ⟨g, m', hr, -⟩ : ∃ g m', Returns (es.foldlM (makeVertex dll) ⟨[], title, some config⟩) m g m' ∧ I [] g m' := by
    apply foldlM_returns I
    · rintro e rest g m' ⟨read, hread, h⟩
      have he : e ∈ es := by rw [hread]; simp
      obtain ⟨g', m'', hr⟩ := makeVertex_returns h (hes e he)
      exact ⟨g', m'', hr, read ++ [e], by simp [hread], h.step hr⟩
    · exact ⟨[], rfl, .start title config⟩
  exact ⟨g, m', hr⟩

omit [TaskStage σ] [TaskCallbackPlugin π] in
lemma makeDag_returns (hp : Published dll dagNode) : ∃ g m', Returns (makeDag dll dagNode) m g m' := by
  obtain ⟨dagDefinitionNode, verticesNode, hroot, hmap, ⟨config, hconfig⟩, ⟨title, htitle⟩, hvertices, hseq, hentries⟩ :=
    hp.root
  obtain ⟨g, m', hr⟩ := entries_return (m := m) hp.loads title config
  refine ⟨g, m', ?_⟩
  simp only [makeDag, returns_bind, returns_attempt]
  refine ⟨_, m, ⟨hroot, rfl⟩, ?_⟩
  simp only [hmap, Bool.not_true, Bool.false_eq_true, if_false, returns_bind, returns_attempt]
  refine ⟨config, m, ⟨hconfig, rfl⟩, title, m, ⟨htitle, rfl⟩, _, m, ⟨hvertices, rfl⟩, ?_⟩
  simp only [makeVertices, hseq, if_true, returns_bind, returns_attempt]
  exact ⟨_, m, ⟨hentries, rfl⟩, hr⟩

omit [TaskStage σ] [TaskCallbackPlugin π] in
lemma makeDag_points (hr : Returns (makeDag dll dagNode) m g m') (u v : UUID) : ¬ Points g m' u v := by
  rintro ⟨a, b, ⟨ha, -, hab⟩, -, -⟩
  obtain ⟨e, he, -⟩ := mem_targets.mp hab
  rw [(makeDag_loaded hr).edges a ha] at he
  exact List.not_mem_nil he

/-- The promise is kept exactly to the documents that ask for no edge. -/
theorem makeDag_realizes_iff (hp : Published dll dagNode) :
    Realizes dll dagNode m ↔ connectionEntries dagNode = [] := by
  obtain ⟨g, m', hr⟩ := makeDag_returns (m := m) hp
  constructor
  · intro h
    by_contra hne
    obtain ⟨c, hc⟩ := List.exists_mem_of_ne_nil _ hne
    obtain ⟨u, v, hu, hv, -, -⟩ := hp.declared c hc
    have hasks : Asks dagNode u v := ⟨c, hc, hu, hv⟩
    by_cases hac : Digraphs.Acyclic (Asks dagNode)
    · obtain ⟨g₁, m₁, hr₁, hedges, -⟩ := h.built hac
      exact makeDag_points hr₁ u v ((hedges u v).mpr hasks)
    · obtain ⟨e, he⟩ := h.rejected hac
      rw [Returns, he] at hr
      cases hr
  · intro hnil
    have hnone : ∀ u v, ¬ Asks dagNode u v := by
      rintro u v ⟨c, hc, -⟩
      rw [hnil] at hc
      exact List.not_mem_nil hc
    have hac : Digraphs.Acyclic (Asks dagNode) := by
      intro u hu
      obtain ⟨v, hv, -⟩ := Relation.TransGen.head'_iff.mp hu
      exact hnone u v hv
    refine ⟨fun _ => ⟨g, m', hr, ?_, ?_⟩, fun hno => absurd hac hno⟩
    · exact fun u v => ⟨fun h => absurd h (makeDag_points hr u v), fun h => absurd h (hnone u v)⟩
    · exact fun u v h => absurd h (hnone u v)

namespace Sample

def linked (es cs : List Node) : Node :=
  .map [(dagKey, .map [(verticesKey, .sequence es), ("Connections", .sequence cs)])]

def twoVertices : List Node :=
  [named "first" "00000000-0000-0000-0000-000000000001", named "second" "00000000-0000-0000-0000-000000000002"]

def link : Node := .map [("Connection", .null), ("From", .scalar "00000000-0000-0000-0000-000000000001"),
  ("To", .scalar "00000000-0000-0000-0000-000000000002")]

lemma entries_linked (es cs : List Node) : entries (linked es cs) = es := by
  simp [entries, vertices, linked, find, YAMLNode.get, dagKey, verticesKey, asVector, YAMLNode.asVector,
    Except.mapError, bind, Except.bind, Except.toOption]

lemma connectionEntries_linked (es cs : List Node) : connectionEntries (linked es cs) = cs := by
  simp [connectionEntries, connections, linked, find, YAMLNode.get, dagKey, verticesKey, asVector,
    YAMLNode.asVector, Except.mapError, bind, Except.bind, Except.toOption]

lemma named_loads {name uuid : String} {u : UUID} (hu : UUID.ofString uuid = some u) :
    Loads noLibrary (named name uuid) := by
  have hparse : parseUuid uuid = .ok u := by
    rw [parseUuid, hu]
    rfl
  refine ⟨⟨name, ?_⟩, ⟨uuid, u, ?_, hparse⟩, .inl ?_⟩
  · simp [optionalString, named, find, YAMLNode.get, nameKey, uuidKey, asString, YAMLNode.asString,
      Except.mapError, bind, Except.bind]
  · simp [require, named, find, YAMLNode.get, nameKey, uuidKey, asString, YAMLNode.asString, Except.mapError,
      bind, Except.bind, pure, Except.pure]
  · simp [named, find, YAMLNode.get, nameKey, uuidKey, taskKey, Except.mapError]

lemma twoVertices_published {cs : List Node}
    (hc : ∀ c ∈ cs, uuidAt "From" c = some ⟨1⟩ ∧ uuidAt "To" c = some ⟨2⟩) :
    Published noLibrary (linked twoVertices cs) := by
  have huuids : twoVertices.map entryUuid = [some ⟨1⟩, some ⟨2⟩] := by decide +kernel
  refine ⟨⟨.map [(verticesKey, .sequence twoVertices), ("Connections", .sequence cs)], .sequence twoVertices, ?_, rfl,
    ⟨.null, ?_⟩, ⟨"", ?_⟩, ?_, rfl, ?_⟩, ?_, ?_, ?_⟩
  · simp [linked, find, YAMLNode.get, Except.mapError]
  · simp [optionalJson, find, YAMLNode.get, verticesKey, configurationKey, Except.mapError, bind, Except.bind, pure,
      Except.pure]
  · simp [optionalString, find, YAMLNode.get, verticesKey, titleKey, Except.mapError, bind, Except.bind, pure,
      Except.pure]
  · simp [find, YAMLNode.get, verticesKey, Except.mapError]
  · rw [entries_linked]
    rfl
  · rw [entries_linked]
    intro e he
    simp only [twoVertices, List.mem_cons, List.not_mem_nil, or_false] at he
    obtain rfl | rfl := he
    · exact named_loads (u := ⟨1⟩) (by decide +kernel)
    · exact named_loads (u := ⟨2⟩) (by decide +kernel)
  · rw [entries_linked, huuids]
    decide
  · rw [entries_linked, connectionEntries_linked, huuids]
    intro c hcs
    obtain ⟨hfrom, hto⟩ := hc c hcs
    exact ⟨⟨1⟩, ⟨2⟩, hfrom, hto, by simp, by simp⟩

end Sample

theorem makeDag_realizes_iff_sample :
    Realizes Sample.noLibrary (Sample.linked Sample.twoVertices []) Graphs.Sample.memory ∧
      ¬ Realizes Sample.noLibrary (Sample.linked Sample.twoVertices [Sample.link]) Graphs.Sample.memory := by
  have hlink : uuidAt "From" Sample.link = some ⟨1⟩ ∧ uuidAt "To" Sample.link = some ⟨2⟩ := by decide +kernel
  constructor
  · rw [makeDag_realizes_iff (Sample.twoVertices_published (by simp)), Sample.connectionEntries_linked]
  · rw [makeDag_realizes_iff (Sample.twoVertices_published (by simpa using hlink)), Sample.connectionEntries_linked]
    simp

/-- One connection is asked for, and the graph that is made has none. -/
theorem makeDag_realizes_fails : ∃ g m',
    Returns (makeDag Sample.noLibrary (Sample.linked Sample.twoVertices [Sample.link])) Graphs.Sample.memory g m' ∧
    g.graph.map m'.uuid = [some ⟨1⟩, some ⟨2⟩] ∧ Asks (Sample.linked Sample.twoVertices [Sample.link]) ⟨1⟩ ⟨2⟩ ∧
    Digraphs.Acyclic (Asks (Sample.linked Sample.twoVertices [Sample.link])) ∧ ¬ Points g m' ⟨1⟩ ⟨2⟩ := by
  have hlink : uuidAt "From" Sample.link = some ⟨1⟩ ∧ uuidAt "To" Sample.link = some ⟨2⟩ := by decide +kernel
  have hasks : ∀ u v, Asks (Sample.linked Sample.twoVertices [Sample.link]) u v ↔ u = ⟨1⟩ ∧ v = ⟨2⟩ := by
    intro u v
    simp only [Asks, Sample.connectionEntries_linked, List.mem_singleton, exists_eq_left, hlink, Option.some.injEq]
    exact and_congr eq_comm eq_comm
  have hany : ((makeDag Sample.noLibrary (Sample.linked Sample.twoVertices [Sample.link])).run
      Graphs.Sample.memory).toOption.any (fun r => decide (r.1.graph.map r.2.uuid = [some ⟨1⟩, some ⟨2⟩])) = true := by
    decide +kernel
  obtain ⟨g, m', hr, huuids⟩ := exists_returns hany
  refine ⟨g, m', hr, of_decide_eq_true huuids, (hasks _ _).mpr ⟨rfl, rfl⟩, ?_, makeDag_points hr _ _⟩
  refine Digraphs.acyclic_of_rank (fun u => u.bytes.toNat) fun u v huv => ?_
  obtain ⟨rfl, rfl⟩ := (hasks u v).mp huv
  decide

end DagScheduler.Graphs.YAMLDagDeserializer

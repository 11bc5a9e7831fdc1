import DagScheduler.Graphs.Serialization
import DagScheduler.GraphProofs.EffectProofs
import DagScheduler.Library.Results

/-! What `make_dag` makes of a document: vertices for its entries, except that an entry whose
identifier came before is dropped. -/

namespace DagScheduler.Graphs.YAMLDagDeserializer

open Library Library.Programs Library.Results

variable {ν L σ π : Type} [YAMLNode ν] {dll : Dll L σ π} {m m' m₀ : Memory σ π} {g g' : DAG} {e : ν}
  {read : List ν} {v : DAGVertex σ π}

section Reading

variable (dagNode : ν)

def vertices : Except Exception (List ν) := do
  match ← find dagNode dagKey with
  | none => pure []
  | some dagDefinitionNode =>
    match ← find dagDefinitionNode verticesKey with
    | none => pure []
    | some verticesNode => asVector verticesNode

def entries : List ν := (vertices dagNode).toOption.getD []

end Reading

def entryUuid (e : ν) : Option UUID := do
  let uuidNode ← (find e uuidKey).toOption.join
  UUID.ofString (← (asString uuidNode).toOption)

structure Describes (e : ν) (v : DAGVertex σ π) : Prop where
  uuid : entryUuid e = some v.uuid
  label : (find e nameKey = .ok none ∧ v.label = "") ∨
    ∃ nameNode, find e nameKey = .ok (some nameNode) ∧ asString nameNode = .ok v.label
  task : v.task.isSome ↔ ∃ taskNode, find e taskKey = .ok (some taskNode)

def Made (m : Memory σ π) (e : ν) (a : Addr) : Prop := ∃ v, m.vertex a = some v ∧ Describes e v

def Faithful (dagNode : ν) (g : DAG) (m : Memory σ π) : Prop := List.Forall₂ (Made m) (entries dagNode) g.graph

@[simp] lemma returns_attempt {α : Type} {r : Except Exception α} {a : α} :
    Returns (attempt r) m a m' ↔ r = .ok a ∧ m' = m := by
  simp only [attempt, returns_ofResult]
  cases r <;> simp [Except.mapError]

lemma optionalString_eq_ok {key text : String} : optionalString e key = .ok text ↔
    (find e key = .ok none ∧ text = "") ∨ ∃ child, find e key = .ok (some child) ∧ asString child = .ok text := by
  unfold optionalString
  rw [bind_eq_ok]
  constructor
  · rintro ⟨found, hfound, htext⟩
    cases found with
    | none => exact .inl ⟨hfound, (Except.ok.inj htext).symm⟩
    | some child => exact .inr ⟨child, hfound, htext⟩
  · rintro (⟨hfound, rfl⟩ | ⟨child, hfound, htext⟩)
    · exact ⟨none, hfound, rfl⟩
    · exact ⟨some child, hfound, htext⟩

lemma require_eq_ok {key : String} {child : ν} : require e key = .ok child ↔ find e key = .ok (some child) := by
  unfold require
  rw [bind_eq_ok]
  constructor
  · rintro ⟨found, hfound, hchild⟩
    cases found with
    | none => cases hchild
    | some c => rwa [← Except.ok.inj hchild]
  · exact fun hfound => ⟨some child, hfound, rfl⟩

lemma entryUuid_eq {uuidStr : String} {uuid : UUID} (hstr : (do asString (← require e uuidKey)) = .ok uuidStr)
    (huuid : parseUuid uuidStr = .ok uuid) : entryUuid e = some uuid := by
  obtain ⟨uuidNode, hnode, hstr⟩ := bind_eq_ok.mp hstr
  rw [require_eq_ok] at hnode
  have hparsed : UUID.ofString uuidStr = some uuid := by
    unfold parseUuid at huuid
    split at huuid
    · rename_i u hu
      rw [hu, Except.ok.inj huuid]
    · cases huuid
  simp [entryUuid, hnode, hstr, hparsed, Except.toOption]

lemma returns_generateTaskUuid {u : TaskUuid} (hr : Returns generateTaskUuid m u m') :
    ∃ entropy, m' = { m with entropy := entropy } := by
  simp only [generateTaskUuid, returns_bind, returns_mapFault, returns_uuidGenerate, returns_pure] at hr
  obtain ⟨_, _, ⟨rfl, rfl⟩, -, rfl⟩ := hr
  exact ⟨_, rfl⟩

def TaskOf (dll : Dll L σ π) (e : ν) (task : Option (Task σ π)) : Prop :=
  ∀ taskNode, find e taskKey = .ok (some taskNode) → ∃ u t, makeTask dll u taskNode = .ok t ∧ task = some t

lemma returns_optionalTask {task : Option (Task σ π)} (hr : Returns (optionalTask dll e) m task m') :
    (task.isSome ↔ ∃ taskNode, find e taskKey = .ok (some taskNode)) ∧ TaskOf dll e task ∧
      ∃ entropy, m' = { m with entropy := entropy } := by
  simp only [optionalTask, returns_bind, returns_attempt] at hr
  obtain ⟨found, _, ⟨hfound, rfl⟩, hr⟩ := hr
  cases found with
  | none =>
    obtain ⟨rfl, rfl⟩ := returns_pure.mp hr
    exact ⟨by simp [hfound], fun taskNode h => by simp [hfound] at h, m'.entropy, rfl⟩
  | some taskNode =>
    simp only [returns_bind, returns_attempt, returns_pure] at hr
    obtain ⟨u, m₁, hu, task, _, ⟨htask, rfl⟩, rfl, rfl⟩ := hr
    refine ⟨by simp [hfound], ?_, returns_generateTaskUuid hu⟩
    intro taskNode' h
    rw [hfound, Except.ok.injEq, Option.some.injEq] at h
    exact ⟨u, task, h ▸ htask, rfl⟩

lemma makeVertex_offers (hr : Returns (makeVertex dll g e) m g' m') :
    ∃ (v : DAGVertex σ π) (entropy : ℕ → UUID) (added : Bool) (rest : DAGVertex σ π), Describes e v ∧ v.edges = [] ∧
      TaskOf dll e v.task ∧ Returns (g.addVertex v) { m with entropy := entropy } (added, g', rest) m' := by
  simp only [makeVertex, returns_bind, returns_attempt, returns_mapFault, returns_pure] at hr
  obtain ⟨name, _, ⟨hname, rfl⟩, uuidStr, _, ⟨hstr, rfl⟩, uuid, _, ⟨huuid, rfl⟩, task, m₁, htask,
    ⟨added, g₁, rest⟩, m₂, hadd, rfl, rfl⟩ := hr
  obtain ⟨hsome, htaskOf, entropy, rfl⟩ := returns_optionalTask htask
  refine ⟨_, entropy, added, rest, ⟨?_, ?_, ?_⟩, rfl, htaskOf, hadd⟩
  · exact entryUuid_eq hstr huuid
  · exact optionalString_eq_ok.mp hname
  · exact hsome

/-- The loop has read some entries. Each has a vertex with its identifier, and each vertex was made
of one of them. -/
structure Loaded (m₀ : Memory σ π) (read : List ν) (g : DAG) (m : Memory σ π) : Prop where
  kept : Kept m₀ m
  owned : g.Owned m
  uuids : g.DistinctUuids m
  edges : ∀ a ∈ g.graph, m.edges a = []
  config : g.jsonConfig.isSome
  made : ∃ made : List ν, made.Sublist read ∧ List.Forall₂ (Made m) made g.graph
  covered : ∀ e ∈ read, ∃ a ∈ g.graph, m.uuid a = entryUuid e

namespace Loaded

lemma start (title : String) (config : Document) : Loaded m ([] : List ν) ⟨[], title, some config⟩ m where
  kept := ⟨fun _ _ => rfl, le_refl _, rfl⟩
  owned := ⟨List.nodup_nil, by simp⟩
  uuids := by simp [DAG.DistinctUuids]
  edges := by simp
  config := rfl
  made := ⟨[], .slnil, .nil⟩
  covered := by simp

lemma entropy (h : Loaded m₀ read g m) (entropy : ℕ → UUID) : Loaded m₀ read g { m with entropy := entropy } :=
  ⟨⟨h.kept.cell, h.kept.next, h.kept.wrapped⟩, ⟨h.owned.nodup, h.owned.live⟩, h.uuids, h.edges, h.config, h.made,
    h.covered⟩

lemma drop (h : Loaded m₀ read g m) (he : Describes e v) (hfound : ∃ a ∈ g.graph, m.uuid a = some v.uuid) :
    Loaded m₀ (read ++ [e]) g m := by
  refine ⟨h.kept, h.owned, h.uuids, h.edges, h.config, ?_, ?_⟩
  · obtain ⟨made, hsub, hall⟩ := h.made
    exact ⟨made, hsub.trans (List.sublist_append_left _ _), hall⟩
  · intro e' he'
    rcases List.mem_append.mp he' with he' | he'
    · exact h.covered e' he'
    · rw [List.mem_singleton.mp he', he.uuid]
      exact hfound

lemma add (h : Loaded m₀ read g m) (he : Describes e v) (hedges : v.edges = [])
    (hnew : ∀ a ∈ g.graph, m.uuid a ≠ some v.uuid) :
    Loaded m₀ (read ++ [e]) { g with graph := g.graph ++ [m.vertices.next] }
      { m with vertices := m.vertices.makeShared v } := by
  have hm := kept_makeShared m v
  have hlt : ∀ a ∈ g.graph, a < m.vertices.next := fun a ha => vertex_lt (h.owned.live a ha)
  have hv := vertex_makeShared_self m v
  have huuid : ({ m with vertices := m.vertices.makeShared v } : Memory σ π).uuid m.vertices.next = some v.uuid :=
    uuid_of_vertex hv
  refine ⟨h.kept.trans hm, ⟨DAG.nodup_append_next h.owned.nodup hlt, ?_⟩, h.uuids.makeShared hlt hnew, ?_,
    h.config, ?_, ?_⟩
  · intro a ha
    rcases List.mem_append.mp ha with ha | ha
    · exact (hm.live (hlt a ha)).mpr (h.owned.live a ha)
    · rw [List.mem_singleton.mp ha]
      exact Memory.live_of_vertex hv
  · intro a ha
    rcases List.mem_append.mp ha with ha | ha
    · rw [hm.edges (hlt a ha)]
      exact h.edges a ha
    · rw [List.mem_singleton.mp ha, edges_of_vertex hv]
      exact hedges
  · obtain ⟨made, hsub, hall⟩ := h.made
    refine ⟨made ++ [e], hsub.append_right _, List.rel_append ?_ (.cons ⟨v, hv, he⟩ .nil)⟩
    refine List.forall₂_iff_zip.mpr ⟨hall.length_eq, fun {e' a} hmem => ?_⟩
    obtain ⟨w, hw, hdescribes⟩ := (List.forall₂_iff_zip.mp hall).2 hmem
    exact ⟨w, (hm.vertex (hlt a (List.of_mem_zip hmem).2)).trans hw, hdescribes⟩
  · intro e' he'
    rcases List.mem_append.mp he' with he' | he'
    · obtain ⟨a, ha, hau⟩ := h.covered e' he'
      exact ⟨a, List.mem_append_left _ ha, (hm.uuid (hlt a ha)).trans hau⟩
    · rw [List.mem_singleton.mp he', he.uuid]
      exact ⟨m.vertices.next, by simp, huuid⟩

lemma step (h : Loaded m₀ read g m) (hr : Returns (makeVertex dll g e) m g' m') : Loaded m₀ (read ++ [e]) g' m' := by
  obtain ⟨v, entropy, added, rest, he, hedges, -, hadd⟩ := makeVertex_offers hr
  have h' := h.entropy entropy
  rw [DAG.returns_addVertex h'.owned] at hadd
  split_ifs at hadd with hany
  · obtain ⟨hres, rfl⟩ := hadd
    obtain ⟨-, rfl, -⟩ := Prod.mk.injEq .. ▸ hres
    exact h'.drop he (by simpa using hany)
  · obtain ⟨hres, rfl⟩ := hadd
    obtain ⟨-, rfl, -⟩ := Prod.mk.injEq .. ▸ hres
    exact h'.add he hedges (by simpa using hany)

lemma run (h : Loaded m₀ ([] : List ν) g m) {es : List ν} (hr : Returns (es.foldlM (makeVertex dll) g) m g' m') :
    Loaded m₀ es g' m' := by
  let I : List ν → DAG → Memory σ π → Prop := fun rest g m => ∃ read, es = read ++ rest ∧ Loaded m₀ read g m
  have hstep : ∀ e rest g m g' m', I (e :: rest) g m → Returns (makeVertex dll g e) m g' m' → I rest g' m' := by
    rintro e rest g m g' m' ⟨read, hread, h⟩ hr
    exact ⟨read ++ [e], by simp [hread], h.step hr⟩
  obtain ⟨read, hread, h'⟩ := foldlM_preserves I hstep ⟨[], rfl, h⟩ hr
  rw [List.append_nil] at hread
  exact hread ▸ h'

lemma map_uuid {made : List ν} {as : List Addr} (hall : List.Forall₂ (Made m) made as) :
    made.map entryUuid = as.map m.uuid := by
  induction hall with
  | nil => rfl
  | cons ha _ ih =>
    obtain ⟨v, hv, he⟩ := ha
    rw [List.map_cons, List.map_cons, ih, he.uuid, uuid_of_vertex hv]

lemma lossless_iff (h : Loaded m₀ read g m) :
    List.Forall₂ (Made m) read g.graph ↔ (read.map entryUuid).Nodup := by
  have hnodup : (g.graph.map m.uuid).Nodup := h.owned.nodup.map_on h.uuids
  constructor
  · intro hall
    rw [map_uuid hall]
    exact hnodup
  · intro hdistinct
    obtain ⟨made, hsub, hall⟩ := h.made
    have hcovered : read.map entryUuid ⊆ made.map entryUuid := by
      intro u hu
      obtain ⟨e, he, rfl⟩ := List.mem_map.mp hu
      obtain ⟨a, ha, hau⟩ := h.covered e he
      rw [map_uuid hall, ← hau]
      exact List.mem_map_of_mem ha
    have hlength : read.length ≤ made.length := by
      simpa using (hdistinct.subperm hcovered).length_le
    rwa [← hsub.eq_of_length_le hlength]

end Loaded

lemma makeDag_runs {dagNode : ν} (hr : Returns (makeDag dll dagNode) m g m') :
    ∃ title config, Returns ((entries dagNode).foldlM (makeVertex dll) ⟨[], title, some config⟩) m g m' := by
  simp only [makeDag, returns_bind, returns_attempt] at hr
  obtain ⟨found, _, ⟨hfound, rfl⟩, hr⟩ := hr
  cases found with
  | none => simp [throw, throwThe, MonadExceptOf.throw] at hr
  | some dagDefinitionNode =>
    simp only at hr
    split at hr
    · simp [throwWrongType, throw, throwThe, MonadExceptOf.throw] at hr
    · simp only [returns_bind, returns_attempt] at hr
      obtain ⟨config, _, ⟨-, rfl⟩, title, _, ⟨-, rfl⟩, vfound, _, ⟨hvfound, rfl⟩, hr⟩ := hr
      refine ⟨title, config, ?_⟩
      cases vfound with
      | none =>
        have hnil : entries dagNode = [] := by
          simp [entries, vertices, hfound, hvfound, bind, Except.bind, pure, Except.pure, Except.toOption]
        rwa [hnil]
      | some verticesNode =>
        simp only [makeVertices] at hr
        split at hr
        · simp only [returns_bind, returns_attempt] at hr
          obtain ⟨es, _, ⟨hes, rfl⟩, hr⟩ := hr
          have hentries : entries dagNode = es := by
            simp [entries, vertices, hfound, hvfound, hes, bind, Except.bind, Except.toOption]
          rwa [hentries]
        · simp [throwWrongType, throw, throwThe, MonadExceptOf.throw] at hr

lemma makeDag_loaded {dagNode : ν} (hr : Returns (makeDag dll dagNode) m g m') :
    Loaded m (entries dagNode) g m' := by
  obtain ⟨title, config, hr⟩ := makeDag_runs hr
  exact (Loaded.start title config).run hr

lemma makeDag_clonable {dagNode : ν} (hr : Returns (makeDag dll dagNode) m g m') : g.Clonable m' := by
  have h := makeDag_loaded hr
  refine ⟨h.owned, ?_, h.uuids, h.config⟩
  intro a ha e he
  rw [h.edges a ha] at he
  exact absurd he List.not_mem_nil

/-- `make_dag` loses no entry if and only if no two have the same identifier. -/
theorem makeDag_faithful_iff {dagNode : ν} (hr : Returns (makeDag dll dagNode) m g m') :
    Faithful dagNode g m' ↔ ((entries dagNode).map entryUuid).Nodup := (makeDag_loaded hr).lossless_iff

namespace Sample

inductive Node where
  | null
  | scalar (s : String)
  | sequence (children : List Node)
  | map (children : List (String × Node))

instance : YAMLNode Node where
  get node key := match node with
    | .map children => .ok ((children.find? fun child => child.1 == key).map Prod.snd)
    | .scalar _ => .error "operator[] call on a scalar"
    | _ => .ok none
  isMap node := match node with
    | .map _ => true
    | _ => false
  isSequence node := match node with
    | .sequence _ => true
    | _ => false
  asString node := match node with
    | .scalar s => .ok s
    | _ => .error "bad conversion"
  asVector node := match node with
    | .sequence children => .ok children
    | _ => .error "bad conversion"
  text _ := ""
  json _ := some .null

def noLibrary : Dll Unit Unit Unit where
  sharedLibrary _ := .error "no library"
  symbols _ _ := .error "no library"
  stageCreator _ _ := .error "no library"
  callback _ _ := .error "no library"
  plugin _ _ := .error "no library"
  base := ()

def document (es : List Node) : Node := .map [(dagKey, .map [(verticesKey, .sequence es)])]

def named (name uuid : String) : Node := .map [(nameKey, .scalar name), (uuidKey, .scalar uuid)]

def tasked (uuid : String) : Node := .map [(uuidKey, .scalar uuid), (taskKey, .null)]

def distinct : Node :=
  document [named "first" "00000000-0000-0000-0000-000000000001", tasked "00000000-0000-0000-0000-000000000002"]

def twice : Node :=
  document [named "first" "00000000-0000-0000-0000-00000000000a", named "second" "00000000-0000-0000-0000-00000000000A"]

end Sample

theorem makeDag_faithful_sample : ∃ g m', Returns (makeDag Sample.noLibrary Sample.distinct) Graphs.Sample.memory g m' ∧
    (entries Sample.distinct).length = 2 ∧ Faithful Sample.distinct g m' := by
  have hany : ((makeDag Sample.noLibrary Sample.distinct).run Graphs.Sample.memory).toOption.any (fun _ => true) = true := by
    decide +kernel
  obtain ⟨g, m', hr, -⟩ := exists_returns hany
  exact ⟨g, m', hr, by decide +kernel, (makeDag_faithful_iff hr).mpr (by decide +kernel)⟩

/-- Of two entries with one identifier the second is lost, and the document accepted. -/
theorem makeDag_faithful_fails : ∃ g m', Returns (makeDag Sample.noLibrary Sample.twice) Graphs.Sample.memory g m' ∧
    (entries Sample.twice).map entryUuid = [some ⟨10⟩, some ⟨10⟩] ∧ g.graph.length = 1 ∧ ¬ Faithful Sample.twice g m' := by
  have hany : ((makeDag Sample.noLibrary Sample.twice).run Graphs.Sample.memory).toOption.any
      (fun r => decide (r.1.graph.length = 1)) = true := by
    decide +kernel
  obtain ⟨g, m', hr, hlength⟩ := exists_returns hany
  have hone : g.graph.length = 1 := of_decide_eq_true hlength
  refine ⟨g, m', hr, by decide +kernel, hone, fun hfaithful => ?_⟩
  have htwo : (entries Sample.twice).length = g.graph.length := hfaithful.length_eq
  exact absurd (htwo.trans hone) (by decide +kernel)

end DagScheduler.Graphs.YAMLDagDeserializer

import DagScheduler.GraphProofs.BatchProofs
import DagScheduler.GraphProofs.CallbackProofs

/-! From a document to the queue of the scheduler. -/

namespace DagScheduler.Graphs

open Library Library.Programs Library.Digraphs Library.Layers

variable {σ π : Type} {m m' m₀ : Memory σ π} {g g' : DAG} {fuel : ℕ}

/-! A graph without edges has one layer. -/

namespace DAG

lemma not_connected (hedges : ∀ a ∈ g.graph, m.edges a = []) (a b : Addr) : ¬ g.Connected m a b := by
  rintro ⟨ha, -, hab⟩
  rw [Memory.targets, hedges a ha] at hab
  exact absurd hab List.not_mem_nil

lemma acyclic_of_edgeless (hedges : ∀ a ∈ g.graph, m.edges a = []) : g.Acyclic m := by
  intro a ha
  obtain ⟨b, hab, -⟩ := Relation.TransGen.head'_iff.mp ha
  exact not_connected hedges a b hab

variable [TaskStage σ] [TaskCallbackPlugin π]

/-- All vertices of a graph without edges are one batch. -/
lemma processDag_edgeless (hg : g.Clonable m) (hedges : ∀ a ∈ g.graph, m.edges a = [])
    (hfuel : g.graph.length ≤ fuel) {vs : List (DAGVertex σ π)} (hvs : g.graph.map m.vertex = vs.map some)
    (out : Batches σ π) (queue : TaskQueue σ π) :
    ∃ m', Returns (processDag false fuel g out queue) m
        (true, if vs.isEmpty then [] else [vs.map fun v => v.clone.clone.clone],
          queue ++ vs.map fun v => v.clone.clone.task) m' ∧ Untouched m m' := by
  have hsucc : ∀ a ∈ g.graph, m.targets a = [] := fun a ha => by
    rw [Memory.targets, hedges a ha]
    rfl
  obtain ⟨n, m', hlayers, hnil, hm, hr⟩ := processDag_layers hg (acyclic_of_edgeless hedges) hfuel out queue
  refine ⟨m', ?_, hm⟩
  have hsmall : n ≤ 1 := by
    by_contra hlarge
    exact hlayers 1 (by omega) (layer_succ_of_edgeless hsucc 0)
  cases vs with
  | nil =>
    have hgraph : g.graph = [] := List.map_eq_nil_iff.mp hvs
    have hn : n = 0 := by
      by_contra hne
      exact hlayers 0 (by omega) ((layer_zero_of_edgeless hsucc).trans hgraph)
    subst hn
    exact hr
  | cons v vs =>
    have hn : n = 1 := by
      have hne : n ≠ 0 := by
        rintro rfl
        rw [remaining_zero] at hnil
        simp [hnil] at hvs
      omega
    subst hn
    rw [List.range_one, List.map_singleton, layer_zero_of_edgeless hsucc, copies_eq hvs] at hr
    simpa [Function.comp_def] using hr

end DAG

namespace YAMLDagDeserializer

variable {ν L : Type} [YAMLNode ν] {dll : Dll L σ π} {dagNode e : ν} {read : List ν}

/-- The entries that no earlier one shares its identifier with. -/
def firsts (es : List ν) : List ν :=
  es.foldl (fun kept e => if kept.any fun k => entryUuid k = entryUuid e then kept else kept ++ [e]) []

lemma firsts_append (es : List ν) (e : ν) : firsts (es ++ [e]) =
    if (firsts es).any fun k => entryUuid k = entryUuid e then firsts es else firsts es ++ [e] := by
  rw [firsts, List.foldl_append]
  rfl

/-- The vertex describes its entry, and its task is what the entry asks for. -/
structure Renders (dll : Dll L σ π) (e : ν) (v : DAGVertex σ π) : Prop extends Describes e v where
  taskOf : TaskOf dll e v.task

def Rendered (dll : Dll L σ π) (read : List ν) (g : DAG) (m : Memory σ π) : Prop :=
  List.Forall₂ (fun e a => ∃ v, m.vertex a = some v ∧ Renders dll e v) (firsts read) g.graph

lemma Rendered.map_uuid (h : Rendered dll read g m) : (firsts read).map entryUuid = g.graph.map m.uuid :=
  Loaded.map_uuid (List.Forall₂.imp (fun _ _ ⟨v, hv, he⟩ => ⟨v, hv, he.toDescribes⟩) h)

lemma Rendered.vertices {es : List ν} {as : List Addr}
    (h : List.Forall₂ (fun e a => ∃ v, m.vertex a = some v ∧ Renders dll e v) es as) :
    ∃ vs : List (DAGVertex σ π), as.map m.vertex = vs.map some ∧ List.Forall₂ (Renders dll) es vs := by
  induction h with
  | nil => exact ⟨[], rfl, .nil⟩
  | cons hv _ ih =>
    obtain ⟨v, hv, he⟩ := hv
    obtain ⟨vs, hvs, hall⟩ := ih
    exact ⟨v :: vs, by rw [List.map_cons, hv, hvs, List.map_cons], .cons he hall⟩

lemma Rendered.step (hs : Rendered dll read g m) (h : Loaded m₀ read g m)
    (hr : Returns (makeVertex dll g e) m g' m') : Rendered dll (read ++ [e]) g' m' := by
  obtain ⟨v, entropy, added, rest, he, -, htask, hadd⟩ := makeVertex_offers hr
  have hknown : (firsts read).any (fun k => entryUuid k = entryUuid e) =
      g.graph.any fun a => m.uuid a = some v.uuid := by
    have hmap := congrArg (List.any · fun u => decide (u = some v.uuid)) hs.map_uuid
    simpa only [List.any_map, Function.comp_def, he.uuid] using hmap
  rw [DAG.returns_addVertex (h.entropy entropy).owned] at hadd
  rw [Rendered, firsts_append, hknown]
  -- drawing random numbers changes no vertex
  change (if g.graph.any (fun a => m.uuid a = some v.uuid) then _ else _) at hadd
  split_ifs at hadd with hany
  · obtain ⟨hres, rfl⟩ := hadd
    obtain ⟨-, rfl, -⟩ := Prod.mk.injEq .. ▸ hres
    rw [if_pos hany]
    exact hs
  · obtain ⟨hres, rfl⟩ := hadd
    obtain ⟨-, rfl, -⟩ := Prod.mk.injEq .. ▸ hres
    rw [if_neg hany]
    refine List.rel_append ?_ (.cons ⟨v, vertex_makeShared_self m v, he, htask⟩ .nil)
    refine List.forall₂_iff_zip.mpr ⟨hs.length_eq, fun {e' a} hmem => ?_⟩
    obtain ⟨w, hw, hrenders⟩ := (List.forall₂_iff_zip.mp hs).2 hmem
    have hlt : a < m.vertices.next := vertex_lt (h.owned.live a (List.of_mem_zip hmem).2)
    exact ⟨w, (m.vertices.value_makeShared_ne v hlt.ne).trans hw, hrenders⟩

lemma makeDag_rendered (hr : Returns (makeDag dll dagNode) m g m') : Rendered dll (entries dagNode) g m' := by
  obtain ⟨title, config, hr⟩ := makeDag_runs hr
  let I : List ν → DAG → Memory σ π → Prop := fun rest g m' =>
    ∃ read, entries dagNode = read ++ rest ∧ Loaded m read g m' ∧ Rendered dll read g m'
  have hstep : ∀ e rest g m g' m', I (e :: rest) g m → Returns (makeVertex dll g e) m g' m' → I rest g' m' := by
    rintro e rest g m g' m' ⟨read, hread, h, hs⟩ hr
    exact ⟨read ++ [e], by simp [hread], h.step hr, hs.step h hr⟩
  obtain ⟨read, hread, -, hs⟩ := foldlM_preserves I hstep ⟨[], rfl, .start title config, .nil⟩ hr
  rw [List.append_nil] at hread
  exact hread ▸ hs

variable [TaskStage σ] [TaskCallbackPlugin π]

/-- What `make_dag` returns is processed in one batch: the vertices of the entries in the order of the
document, without those whose identifier came before, and the tasks made for them in that order. No edge
holds any of them back, whatever the document says of connections. -/
theorem makeDag_processed (hr : Returns (makeDag dll dagNode) m g m') (hfuel : g.vertexCount ≤ fuel)
    (out : Batches σ π) (queue : TaskQueue σ π) :
    ∃ vs m'', List.Forall₂ (Renders dll) (firsts (entries dagNode)) vs ∧
      Returns (processDag false fuel g out queue) m'
        (true, if vs.isEmpty then [] else [vs.map fun v => v.clone.clone.clone],
          queue ++ vs.map fun v => v.clone.clone.task) m'' ∧ Untouched m' m'' := by
  obtain ⟨vs, hvs, hall⟩ := Rendered.vertices (makeDag_rendered hr)
  have hedges := (makeDag_loaded hr).edges
  obtain ⟨m'', hprocess, hm⟩ := DAG.processDag_edgeless (makeDag_clonable hr) hedges hfuel hvs out queue
  exact ⟨vs, m'', hall, hprocess, hm⟩

theorem makeDag_processed_sample : ∃ g m',
    Returns (makeDag Sample.noLibrary Sample.distinct) Graphs.Sample.memory g m' ∧
    ∀ queue : TaskQueue Unit Unit, ∃ vs m'',
      List.Forall₂ (Renders Sample.noLibrary) (firsts (entries Sample.distinct)) vs ∧
      Returns (processDag false g.vertexCount g [] queue) m'
        (true, if vs.isEmpty then [] else [vs.map fun v => v.clone.clone.clone],
          queue ++ vs.map fun v => v.clone.clone.task) m'' ∧ Untouched m' m'' := by
  have hany : ((makeDag Sample.noLibrary Sample.distinct).run Graphs.Sample.memory).toOption.any
      (fun _ => true) = true := by
    decide +kernel
  obtain ⟨g, m', hr, -⟩ := exists_returns hany
  exact ⟨g, m', hr, fun queue => makeDag_processed hr le_rfl [] queue⟩

end YAMLDagDeserializer

end DagScheduler.Graphs

import DagScheduler.GraphProofs.ProcessProofs
import DagScheduler.GraphProofs.SerializationProofs
import DagScheduler.GraphProofs.TaskProofs

/-! The callback that a document names, and the one that the task of a vertex or of any copy of it calls. -/

namespace DagScheduler.Graphs

open Library Library.Programs Library.Results

variable {ν L σ π β : Type} {m m' m₀ : Memory σ π} {g g' g₀ : DAG} {u : UUID} {v w : DAGVertex σ π} {t : Task σ π}
  {behaviour : π → β}

/-- What a library exports for a callback: a function, or a plugin object. -/
inductive Export (π : Type) where
  | function (f : CompleteCallback)
  | plugin (p : π)

namespace Export

def call (behaviour : π → β) : Export π → Bool → Notification β
  | function f, status => .callback f status
  | plugin p, status => .plugin (behaviour p) status

/-- Whether the copy that is kept of the plugin still does what the plugin does. -/
def Survives (dll : Dll L σ π) (behaviour : π → β) : Export π → Prop
  | function _ => True
  | plugin p => behaviour dll.base = behaviour p

end Export

namespace Task

def told (behaviour : π → β) (t : Task σ π) : Option CompleteCallback × Option β :=
  (t.completeCallback, t.completeCallbackPlugin.map behaviour)

/-- Completing the task makes the call that is due, once, and no other. -/
def Fires (behaviour : π → β) (x : Export π) (t : Task σ π) : Prop :=
  ∀ status, (t.complete status).map (Notification.map behaviour) = [x.call behaviour status]

end Task

def Export.told (behaviour : π → β) : Export π → Option CompleteCallback × Option β
  | function f => (some f, none)
  | plugin p => (none, some (behaviour p))

lemma Task.fires_iff {x : Export π} : t.Fires behaviour x ↔ t.told behaviour = x.told behaviour := by
  have hcall : ∀ status, [x.call behaviour status] =
      ((x.told behaviour).1.map fun f => Notification.callback f status).toList ++
        ((x.told behaviour).2.map fun p => .plugin p status).toList := by
    intro status
    cases x <;> rfl
  simp only [Task.Fires, complete_map, hcall, notified_iff, forall_const, told, Prod.ext_iff]

section Copies

variable [TaskStage σ] [TaskCallbackPlugin π]

inductive Stage (g₀ : DAG) (m₀ : Memory σ π) : DAG → Memory σ π → Prop
  | start : Stage g₀ m₀ g₀ m₀
  | clone {k k' : DAG} {s s' : Memory σ π} (stage : Stage g₀ m₀ k s) (hr : Returns k.clone s k' s') : Stage g₀ m₀ k' s'
  | aside {k k' : DAG} {s s' : Memory σ π} (stage : Stage g₀ m₀ k s) (hr : Returns k.clone s k' s') : Stage g₀ m₀ k s'
  | process {k : DAG} {s s' : Memory σ π} {out : Batches σ π} {queue : TaskQueue σ π}
      {r : Bool × Batches σ π × TaskQueue σ π} (stage : Stage g₀ m₀ k s)
      (hr : Returns (processDag false k.graph.length k out queue) s r s') : Stage g₀ m₀ k s'

inductive CopyOf (g₀ : DAG) (m₀ : Memory σ π) : DAGVertex σ π → Prop
  | held {k : DAG} {s : Memory σ π} {a : Addr} {x : DAGVertex σ π} (stage : Stage g₀ m₀ k s) (ha : a ∈ k.graph)
      (hx : s.vertex a = some x) : CopyOf g₀ m₀ x
  | clone {x : DAGVertex σ π} (copy : CopyOf g₀ m₀ x) : CopyOf g₀ m₀ x.clone
  | processed {k : DAG} {s s' : Memory σ π} {out : Batches σ π} {queue queue' : TaskQueue σ π}
      {batch : List (DAGVertex σ π)} {x : DAGVertex σ π} (stage : Stage g₀ m₀ k s)
      (hr : Returns (processDag false k.graph.length k [] queue) s (true, out, queue') s') (hbatch : batch ∈ out)
      (hx : x ∈ batch) : CopyOf g₀ m₀ x

/-- The tasks that come of the vertex with the identifier `u`: those of its copies, and those that
`process_dag` queues for it. -/
inductive TaskFrom (g₀ : DAG) (m₀ : Memory σ π) (u : UUID) : Task σ π → Prop
  | copied {x : DAGVertex σ π} {y : Task σ π} (copy : CopyOf g₀ m₀ x) (hu : x.uuid = u) (hy : x.task = some y) :
      TaskFrom g₀ m₀ u y
  | queued {k : DAG} {s s' : Memory σ π} {out : Batches σ π} {queue tasks : TaskQueue σ π} {i : ℕ}
      {x : DAGVertex σ π} {y : Task σ π} (stage : Stage g₀ m₀ k s)
      (hr : Returns (processDag false k.graph.length k [] queue) s (true, out, queue ++ tasks) s')
      (hx : out.flatten[i]? = some x) (hu : x.uuid = u) (hy : tasks[i]? = some (some y)) : TaskFrom g₀ m₀ u y

/-! Copying keeps what a task is to call. -/

variable {told : Option CompleteCallback × Option β}

def Carries (behaviour : π → β) (u : UUID) (told : Option CompleteCallback × Option β) (v : DAGVertex σ π) : Prop :=
  v.uuid = u → ∀ t, v.task = some t → t.told behaviour = told

structure Carried (behaviour : π → β) (u : UUID) (told : Option CompleteCallback × Option β) (g : DAG)
    (m : Memory σ π) : Prop where
  clonable : g.Clonable m
  carries : ∀ a ∈ g.graph, ∀ v, m.vertex a = some v → Carries behaviour u told v

omit [TaskStage σ] [TaskCallbackPlugin π] in
lemma Carries.of_core (h : Carries behaviour u told w) (hc : v.core = w) : Carries behaviour u told v := by
  subst hc
  exact h

omit [TaskStage σ] [TaskCallbackPlugin π] in
lemma Carried.kept (h : Carried behaviour u told g m) (hm : Kept m m') : Carried behaviour u told g m' := by
  refine ⟨h.clonable.kept hm, fun a ha v hv => ?_⟩
  have hlt : a < m.vertices.next := vertex_lt (h.clonable.live a ha)
  exact h.carries a ha v ((hm.vertex hlt).symm.trans hv)

lemma Carried.process (h : Carried behaviour u told g m) {out : Batches σ π} {queue : TaskQueue σ π}
    {r : Bool × Batches σ π × TaskQueue σ π}
    (hr : Returns (processDag false g.graph.length g out queue) m r m') : Carried behaviour u told g m' := by
  obtain ⟨acyclic, out', queue', m'', hr', hm, -⟩ := processDag_layering h.clonable (le_refl _) out queue
  obtain ⟨rfl, rfl⟩ := hr.unique hr'
  exact h.kept hm.kept

-- A copy of a plugin behaves as the plugin, and nothing is both a function and a plugin.
variable (hplugin : ∀ p : π, behaviour (TaskCallbackPlugin.clone p) = behaviour p)
  (hone : told.1 = none ∨ told.2 = none)

include hplugin hone

lemma Task.told_clone (h : t.told behaviour = told) : t.clone.told behaviour = told := by
  subst h
  have hplugins : t.clone.completeCallbackPlugin.map behaviour = t.completeCallbackPlugin.map behaviour := by
    simp [Task.clone, Function.comp_def, hplugin]
  rw [Task.told, Task.told, hplugins]
  rcases hone with hf | hp
  · have hnone : t.completeCallback = none := hf
    simp [Task.clone, hnone]
  · have hnone : t.completeCallbackPlugin = none := by simpa [Task.told] using hp
    simp [Task.clone, hnone]

lemma Carries.clone (h : Carries behaviour u told v) : Carries behaviour u told v.clone := by
  intro hu t ht
  obtain ⟨t₀, ht₀, rfl⟩ := Option.map_eq_some_iff.mp (show v.task.map Task.clone = some t from ht)
  exact Task.told_clone hplugin hone (h hu t₀ ht₀)

namespace Carried

lemma clone (h : Carried behaviour u told g m) (hr : Returns g.clone m g' m') :
    Carried behaviour u told g' m' ∧ Kept m m' := by
  have hg := h.clonable
  obtain ⟨gc, mc, hr', hc⟩ := DAG.clone_returns hg.toOwned hg.uuids hg.known hg.config hg.resolves
  obtain ⟨rfl, rfl⟩ := hr.unique hr'
  refine ⟨⟨hc.wellFormed.toClonable, fun b hb v hv => ?_⟩, hc.kept⟩
  rw [hc.graph] at hb
  obtain ⟨a, ha, rfl⟩ := List.mem_map.mp hb
  obtain ⟨w, hw⟩ := Memory.live_iff.mp (hg.live a ha)
  have hcore := hc.copied.copy a ha w hw
  rw [hv, Option.map_some, Option.some.injEq] at hcore
  exact ((h.carries a ha w hw).clone hplugin hone).of_core hcore

lemma stage (h : Carried behaviour u told g₀ m₀) (hs : Stage g₀ m₀ g m) :
    Carried behaviour u told g m := by
  induction hs with
  | start => exact h
  | clone _ hr ih => exact (ih.clone hplugin hone hr).1
  | aside _ hr ih => exact ih.kept (ih.clone hplugin hone hr).2
  | process _ hr ih => exact ih.process hr

lemma processed (h : Carried behaviour u told g m) {out : Batches σ π}
    {queue queue' : TaskQueue σ π}
    (hr : Returns (processDag false g.graph.length g [] queue) m (true, out, queue') m') :
    ∃ bs : Batches σ π, out = bs.map (List.map DAGVertex.clone) ∧ queue' = queue ++ bs.flatten.map DAGVertex.task ∧
      ∀ v ∈ bs.flatten, Carries behaviour u told v := by
  by_cases hac : g.Acyclic m
  · obtain ⟨n, bs, m'', hr', -, -, hbs⟩ := processDag_batches h.clonable hac (le_refl _) [] queue
    obtain ⟨he, -⟩ := hr.unique hr'
    simp only [Prod.mk.injEq, true_and] at he
    obtain ⟨rfl, rfl⟩ := he
    refine ⟨bs, rfl, rfl, fun v hv => ?_⟩
    have hflat := List.rel_flatten hbs
    obtain ⟨i, hi, rfl⟩ := List.getElem_of_mem hv
    have hi' : i < ((List.range n).map (Library.Layers.layer g.graph m.targets)).flatten.length := hflat.length_eq ▸ hi
    obtain ⟨w, hw, he⟩ := hflat.get hi' hi
    rw [List.get_eq_getElem] at hw he
    have hmem := List.getElem_mem hi'
    obtain ⟨l, hl, ha⟩ := List.mem_flatten.mp hmem
    obtain ⟨k, -, rfl⟩ := List.mem_map.mp hl
    have hgraph := ((Library.Layers.mem_layer _ _).mp ha).1
    rw [he]
    exact ((h.carries _ hgraph w hw).clone hplugin hone).clone hplugin hone
  · obtain ⟨m'', hr', -⟩ := processDag_cyclic h.clonable hac g.graph.length [] queue
    obtain ⟨he, -⟩ := hr.unique hr'
    simp at he

end Carried

lemma CopyOf.carries (h : Carried behaviour u told g₀ m₀) (hc : CopyOf g₀ m₀ v) :
    Carries behaviour u told v := by
  induction hc with
  | held stage ha hx => exact (h.stage hplugin hone stage).carries _ ha _ hx
  | clone _ ih => exact ih.clone hplugin hone
  | processed stage hr hbatch hx =>
    obtain ⟨bs, rfl, -, hbs⟩ := (h.stage hplugin hone stage).processed hplugin hone hr
    obtain ⟨batch, hb, rfl⟩ := List.mem_map.mp hbatch
    obtain ⟨w, hw, rfl⟩ := List.mem_map.mp hx
    exact (hbs w (List.mem_flatten.mpr ⟨batch, hb, hw⟩)).clone hplugin hone

lemma TaskFrom.told_eq (h : Carried behaviour u told g₀ m₀) (ht : TaskFrom g₀ m₀ u t) :
    t.told behaviour = told := by
  cases ht with
  | copied copy hu hy => exact copy.carries hplugin hone h hu t hy
  | @queued _ _ _ _ _ tasks i x _ stage hr hx hu hy =>
    obtain ⟨bs, rfl, htasks, hbs⟩ := (h.stage hplugin hone stage).processed hplugin hone hr
    obtain rfl := List.append_cancel_left htasks
    rw [← List.map_flatten, List.getElem?_map, Option.map_eq_some_iff] at hx
    obtain ⟨w, hw, rfl⟩ := hx
    rw [List.getElem?_map, hw, Option.map_some, Option.some.injEq] at hy
    exact hbs w (List.mem_of_getElem? hw) hu t hy

end Copies

namespace YAMLDagDeserializer

variable [YAMLNode ν] {dll : Dll L σ π} {dagNode e : ν} {read : List ν} {x : Export π}

def TextAt (node : ν) (key text : String) : Prop :=
  ∃ child, find node key = .ok (some child) ∧ asString child = .ok text

inductive Names (dll : Dll L σ π) (callbackNode : ν) : Export π → Prop
  | function {libraryName symbolName type : String} {library : L} {f : CompleteCallback}
      (hlibrary : TextAt callbackNode libraryNameKey libraryName) (hsymbol : TextAt callbackNode symbolNameKey symbolName)
      (htype : TextAt callbackNode callbackTypeKey type) (hfunction : callbackTypeFromString type = .function)
      (hloaded : dll.sharedLibrary libraryName = .ok library) (hexported : dll.callback library symbolName = .ok f) :
      Names dll callbackNode (.function f)
  | plugin {libraryName symbolName type : String} {p : π}
      (hlibrary : TextAt callbackNode libraryNameKey libraryName) (hsymbol : TextAt callbackNode symbolNameKey symbolName)
      (htype : TextAt callbackNode callbackTypeKey type) (hplugin : callbackTypeFromString type = .plugin)
      (hexported : dll.plugin libraryName symbolName = .ok p) : Names dll callbackNode (.plugin p)

def HasCallback (dll : Dll L σ π) (e : ν) (x : Export π) : Prop :=
  ∃ taskNode callbackNode, find e taskKey = .ok (some taskNode) ∧
    find taskNode callbackKey = .ok (some callbackNode) ∧ Names dll callbackNode x

def entryOf (dagNode : ν) (u : UUID) : Option ν := (entries dagNode).find? fun e => entryUuid e = some u

def made (dll : Dll L σ π) (behaviour : π → β) : Export π → Option CompleteCallback × Option β
  | .function f => (some f, none)
  | .plugin _ => (none, some (behaviour dll.base))

omit [YAMLNode ν] in
lemma registerDynamicLibrary_eq {libraryName : String} {item : RegistryItem L}
    (h : registerDynamicLibrary dll libraryName = .ok item) :
    item.libraryName = libraryName ∧ dll.sharedLibrary libraryName = .ok item.sharedLibrary := by
  unfold registerDynamicLibrary at h
  split at h
  · rename_i library hlibrary
    obtain rfl := Except.ok.inj h
    exact ⟨rfl, hlibrary⟩
  · cases h

omit [YAMLNode ν] in
lemma makeTaskFunctionCallback_eq {item : RegistryItem L} {symbolName : String} {f : CompleteCallback}
    (h : makeTaskFunctionCallback dll item symbolName = .ok f) : dll.callback item.sharedLibrary symbolName = .ok f := by
  obtain ⟨⟨present, symbols⟩, -, h⟩ := bind_eq_ok.mp h
  dsimp only at h
  split at h
  · exact mapError_eq_ok.mp h
  · cases h

omit [YAMLNode ν] in
lemma makeTaskFunctionCallbackPlugin_eq {item : RegistryItem L} {symbolName : String} {made : Option π}
    (h : makeTaskFunctionCallbackPlugin dll item symbolName = .ok made) :
    ∃ p, dll.plugin item.libraryName symbolName = .ok p ∧ made = some dll.base := by
  obtain ⟨⟨present, symbols⟩, -, h⟩ := bind_eq_ok.mp h
  dsimp only at h
  split at h
  · obtain ⟨p, hp, h⟩ := bind_eq_ok.mp h
    exact ⟨p, mapError_eq_ok.mp hp, (Except.ok.inj h).symm⟩
  · cases h

lemma makeTaskCallback_cases (behaviour : π → β) {callbackNode : ν} {tu : TaskUuid} {taskName : String} {stages : List σ}
    {jsonConfig jsonInitialInputs : Document}
    (h : makeTaskCallback dll tu taskName stages callbackNode jsonConfig jsonInitialInputs = .ok t) :
    ∃ libraryName symbolName type, TextAt callbackNode libraryNameKey libraryName ∧
      TextAt callbackNode symbolNameKey symbolName ∧ TextAt callbackNode callbackTypeKey type ∧
      ((∃ library f, callbackTypeFromString type = .function ∧ dll.sharedLibrary libraryName = .ok library ∧
          dll.callback library symbolName = .ok f ∧ t.told behaviour = (some f, none)) ∨
        ∃ p, callbackTypeFromString type = .plugin ∧ dll.plugin libraryName symbolName = .ok p ∧
          t.told behaviour = (none, some (behaviour dll.base))) := by
  unfold makeTaskCallback at h
  obtain ⟨libraryNode, hnode, h⟩ := bind_eq_ok.mp h
  obtain ⟨libraryName, hname, h⟩ := bind_eq_ok.mp h
  dsimp only at h
  split at h
  · split at h <;> cases h
  · rename_i task hmade
    obtain rfl := Except.ok.inj h
    obtain ⟨item, hitem, hmade⟩ := bind_eq_ok.mp hmade
    obtain ⟨hlibraryName, hlibrary⟩ := registerDynamicLibrary_eq hitem
    obtain ⟨found, hfound, hmade⟩ := bind_eq_ok.mp hmade
    cases found with
    | none =>
      obtain ⟨_, -, hmade⟩ := bind_eq_ok.mp hmade
      cases hmade
    | some typeNode =>
      obtain ⟨type, htype, hmade⟩ := bind_eq_ok.mp hmade
      split at hmade
      · rename_i hfunction
        obtain ⟨symbolNode, hsymbolNode, hmade⟩ := bind_eq_ok.mp hmade
        obtain ⟨symbolName, hsymbol, hmade⟩ := bind_eq_ok.mp hmade
        obtain ⟨f, hf, hmade⟩ := bind_eq_ok.mp hmade
        obtain rfl := Except.ok.inj hmade
        exact ⟨libraryName, symbolName, type, ⟨libraryNode, require_eq_ok.mp hnode, hname⟩,
          ⟨symbolNode, require_eq_ok.mp hsymbolNode, hsymbol⟩, ⟨typeNode, hfound, htype⟩,
          .inl ⟨item.sharedLibrary, f, hfunction, hlibrary, makeTaskFunctionCallback_eq hf, rfl⟩⟩
      · rename_i hplugin
        obtain ⟨symbolNode, hsymbolNode, hmade⟩ := bind_eq_ok.mp hmade
        obtain ⟨symbolName, hsymbol, hmade⟩ := bind_eq_ok.mp hmade
        obtain ⟨plugin, hloaded, hmade⟩ := bind_eq_ok.mp hmade
        obtain ⟨p, hp, rfl⟩ := makeTaskFunctionCallbackPlugin_eq hloaded
        obtain rfl := Except.ok.inj hmade
        exact ⟨libraryName, symbolName, type, ⟨libraryNode, require_eq_ok.mp hnode, hname⟩,
          ⟨symbolNode, require_eq_ok.mp hsymbolNode, hsymbol⟩, ⟨typeNode, hfound, htype⟩,
          .inr ⟨p, hplugin, hlibraryName ▸ hp, rfl⟩⟩
      · cases hmade

lemma TextAt.unique {node : ν} {key text text' : String} (h : TextAt node key text) (h' : TextAt node key text') :
    text = text' := by
  obtain ⟨child, hfind, hs⟩ := h
  obtain ⟨child', hfind', hs'⟩ := h'
  rw [hfind, Except.ok.injEq, Option.some.injEq] at hfind'
  subst hfind'
  exact Except.ok.inj (hs.symm.trans hs')

lemma makeTaskCallback_told {callbackNode : ν} {tu : TaskUuid} {taskName : String} {stages : List σ}
    {jsonConfig jsonInitialInputs : Document} (hx : Names dll callbackNode x)
    (h : makeTaskCallback dll tu taskName stages callbackNode jsonConfig jsonInitialInputs = .ok t) :
    t.told behaviour = made dll behaviour x := by
  obtain ⟨libraryName, symbolName, type, hl, hs, ht, hcases⟩ := makeTaskCallback_cases behaviour h
  cases hx with
  | function hlibrary hsymbol htype hfunction hloaded hexported =>
    obtain rfl := hl.unique hlibrary
    obtain rfl := hs.unique hsymbol
    obtain rfl := ht.unique htype
    obtain ⟨library, f, -, hlibrary', hf, htold⟩ | ⟨p, hplugin, -⟩ := hcases
    · obtain rfl := Except.ok.inj (hlibrary'.symm.trans hloaded)
      obtain rfl := Except.ok.inj (hf.symm.trans hexported)
      exact htold
    · rw [hfunction] at hplugin
      cases hplugin
  | plugin hlibrary hsymbol htype hplugin hexported =>
    obtain rfl := hl.unique hlibrary
    obtain rfl := hs.unique hsymbol
    obtain rfl := ht.unique htype
    obtain ⟨_, _, hfunction, -⟩ | ⟨p, -, hp, htold⟩ := hcases
    · rw [hplugin] at hfunction
      cases hfunction
    · obtain rfl := Except.ok.inj (hp.symm.trans hexported)
      exact htold

lemma makeTask_told {taskNode callbackNode : ν} {tu : TaskUuid} (hnode : find taskNode callbackKey = .ok (some callbackNode))
    (hx : Names dll callbackNode x) (h : makeTask dll tu taskNode = .ok t) : t.told behaviour = made dll behaviour x := by
  obtain ⟨taskName, -, h⟩ := bind_eq_ok.mp h
  obtain ⟨stages, -, h⟩ := bind_eq_ok.mp h
  obtain ⟨jsonConfig, -, h⟩ := bind_eq_ok.mp h
  obtain ⟨jsonInitialInputs, -, h⟩ := bind_eq_ok.mp h
  obtain ⟨found, hfound, h⟩ := bind_eq_ok.mp h
  rw [hnode, Except.ok.injEq] at hfound
  subst hfound
  exact makeTaskCallback_told hx h

def Sourced (dll : Dll L σ π) (read : List ν) (g : DAG) (m : Memory σ π) : Prop :=
  ∀ a ∈ g.graph, ∃ v e, m.vertex a = some v ∧ (read.find? fun e => entryUuid e = some v.uuid) = some e ∧
    TaskOf dll e v.task

lemma Sourced.step (hs : Sourced dll read g m) (h : Loaded m₀ read g m) (hr : Returns (makeVertex dll g e) m g' m') :
    Sourced dll (read ++ [e]) g' m' := by
  obtain ⟨v, entropy, added, rest, he, -, htask, hadd⟩ := makeVertex_offers hr
  have hlater : ∀ a ∈ g.graph, ∃ w e', m.vertex a = some w ∧
      ((read ++ [e]).find? fun e => entryUuid e = some w.uuid) = some e' ∧ TaskOf dll e' w.task := by
    intro a ha
    obtain ⟨w, e', hw, hfind, ht⟩ := hs a ha
    exact ⟨w, e', hw, by rw [List.find?_append, hfind, Option.some_or], ht⟩
  rw [DAG.returns_addVertex (h.entropy entropy).owned] at hadd
  split_ifs at hadd with hany
  · obtain ⟨hres, rfl⟩ := hadd
    obtain ⟨-, rfl, -⟩ := Prod.mk.injEq .. ▸ hres
    exact hlater
  · obtain ⟨hres, rfl⟩ := hadd
    obtain ⟨-, rfl, -⟩ := Prod.mk.injEq .. ▸ hres
    have hnew : (read.find? fun e => entryUuid e = some v.uuid) = none := by
      rw [List.find?_eq_none]
      intro e' he' heq
      obtain ⟨a, ha, hau⟩ := h.covered e' he'
      exact hany (List.any_eq_true.mpr ⟨a, ha, decide_eq_true (hau.trans (of_decide_eq_true heq))⟩)
    intro a ha
    rcases List.mem_append.mp ha with ha | ha
    · obtain ⟨w, e', hw, hfind, ht⟩ := hlater a ha
      have hlt : a < m.vertices.next := vertex_lt (h.owned.live a ha)
      exact ⟨w, e', (m.vertices.value_makeShared_ne v hlt.ne).trans hw, hfind, ht⟩
    · rw [List.mem_singleton.mp ha]
      refine ⟨v, e, vertex_makeShared_self m v, ?_, htask⟩
      rw [List.find?_append, hnew, Option.none_or, List.find?_cons_of_pos (by simp [he.uuid])]

lemma makeDag_sourced (hr : Returns (makeDag dll dagNode) m g m') : Sourced dll (entries dagNode) g m' := by
  obtain ⟨title, config, hr⟩ := makeDag_runs hr
  let I : List ν → DAG → Memory σ π → Prop := fun rest g m' =>
    ∃ read, entries dagNode = read ++ rest ∧ Loaded m read g m' ∧ Sourced dll read g m'
  have hstep : ∀ e rest g m g' m', I (e :: rest) g m → Returns (makeVertex dll g e) m g' m' → I rest g' m' := by
    rintro e rest g m g' m' ⟨read, hread, h, hs⟩ hr
    exact ⟨read ++ [e], by simp [hread], h.step hr, hs.step h hr⟩
  obtain ⟨read, hread, -, hs⟩ := foldlM_preserves I hstep ⟨[], rfl, .start title config, by simp [Sourced]⟩ hr
  rw [List.append_nil] at hread
  exact hread ▸ hs

lemma makeDag_told (hr : Returns (makeDag dll dagNode) m g m') (he : entryOf dagNode u = some e)
    (hx : HasCallback dll e x) (behaviour : π → β) :
    (∃ a ∈ g.graph, ∃ v t, m'.vertex a = some v ∧ v.uuid = u ∧ v.task = some t) ∧
      Carried behaviour u (made dll behaviour x) g m' := by
  have hs := makeDag_sourced hr
  have hl := makeDag_loaded hr
  obtain ⟨taskNode, callbackNode, htaskNode, hcallbackNode, hnames⟩ := hx
  constructor
  · have hmem : e ∈ entries dagNode := List.mem_of_find?_eq_some he
    have hue : entryUuid e = some u := by simpa using List.find?_some he
    obtain ⟨a, ha, hau⟩ := hl.covered e hmem
    obtain ⟨v, e', hv, hfind, htask⟩ := hs a ha
    obtain rfl : v.uuid = u := by
      rw [uuid_of_vertex hv, hue] at hau
      exact Option.some.inj hau
    obtain rfl : e' = e := Option.some.inj (hfind.symm.trans he)
    obtain ⟨tu, t, -, ht⟩ := htask taskNode htaskNode
    exact ⟨a, ha, v, t, hv, rfl, ht⟩
  · refine ⟨makeDag_clonable hr, ?_⟩
    rintro a ha v hv rfl t ht
    obtain ⟨w, e', hw, hfind, htask⟩ := hs a ha
    obtain rfl := Option.some.inj (hw.symm.trans hv)
    obtain rfl : e' = e := Option.some.inj (hfind.symm.trans he)
    obtain ⟨tu, t', hmake, ht'⟩ := htask taskNode htaskNode
    obtain rfl := Option.some.inj (ht'.symm.trans ht)
    exact makeTask_told hcallbackNode hnames hmake

lemma made_eq_iff : made dll behaviour x = x.told behaviour ↔ x.Survives dll behaviour := by
  cases x <;> simp [made, Export.told, Export.Survives]

variable [TaskStage σ] [TaskCallbackPlugin π]

/-- The callback that the document names is the one that fires, on every copy of the task, exactly if
it survives the copy that is made of it when it is loaded. -/
theorem makeDag_fires_iff (hplugin : ∀ p : π, behaviour (TaskCallbackPlugin.clone p) = behaviour p)
    (hr : Returns (makeDag dll dagNode) m g m') (he : entryOf dagNode u = some e) (hx : HasCallback dll e x) :
    (∀ t, TaskFrom g m' u t → t.Fires behaviour x) ↔ x.Survives dll behaviour := by
  obtain ⟨⟨a, ha, v, t, hv, hu, ht⟩, hc⟩ := makeDag_told hr he hx behaviour
  have hone : (made dll behaviour x).1 = none ∨ (made dll behaviour x).2 = none := by cases x <;> simp [made]
  have hall : ∀ t, TaskFrom g m' u t → t.told behaviour = made dll behaviour x :=
    fun t ht => ht.told_eq hplugin hone hc
  rw [← made_eq_iff]
  constructor
  · intro hfires
    have hfrom : TaskFrom g m' u t := .copied (.held .start ha hv) hu ht
    rw [← hall t hfrom]
    exact Task.fires_iff.mp (hfires t hfrom)
  · exact fun hsurvives t ht => Task.fires_iff.mpr ((hall t ht).trans hsurvives)

namespace Sample

def library : Dll Unit Unit Bool where
  sharedLibrary _ := .ok ()
  symbols _ _ := .ok ["symbol"]
  stageCreator _ _ := .error "no stage"
  callback _ _ := .ok 0
  plugin _ _ := .ok true
  base := false

instance : TaskCallbackPlugin Bool := ⟨id⟩

def memory : Memory Unit Bool where
  vertices := .empty
  entropy n := ⟨BitVec.ofNat 128 (n + 1)⟩
  wrapped := false

def callbackNode (type : String) : Node :=
  .map [(libraryNameKey, .scalar "library"), (symbolNameKey, .scalar "symbol"), (callbackTypeKey, .scalar type)]

def calling (type : String) : Node := .map [(uuidKey, .scalar "00000000-0000-0000-0000-000000000001"),
  (taskKey, .map [(callbackKey, callbackNode type)])]

lemma calling_names (type : String) : TextAt (callbackNode type) libraryNameKey "library" ∧
    TextAt (callbackNode type) symbolNameKey "symbol" ∧ TextAt (callbackNode type) callbackTypeKey type := by
  refine ⟨⟨.scalar "library", ?_, rfl⟩, ⟨.scalar "symbol", ?_, rfl⟩, ⟨.scalar type, ?_, rfl⟩⟩ <;>
    simp [callbackNode, find, YAMLNode.get, libraryNameKey, symbolNameKey, callbackTypeKey, Except.mapError]

lemma calling_has {type : String} {x : Export Bool} (hx : Names library (callbackNode type) x) :
    HasCallback library (calling type) x := by
  refine ⟨.map [(callbackKey, callbackNode type)], callbackNode type, ?_, ?_, hx⟩ <;>
    simp [calling, find, YAMLNode.get, uuidKey, taskKey, callbackKey, Except.mapError]

lemma entryOf_calling (type : String) : entryOf (document [calling type]) ⟨1⟩ = some (calling type) := by
  have hentries : entries (document [calling type]) = [calling type] := by
    simp [entries, vertices, document, find, YAMLNode.get, dagKey, verticesKey, asVector, YAMLNode.asVector,
      Except.mapError, bind, Except.bind, Except.toOption]
  have hparsed : UUID.ofString "00000000-0000-0000-0000-000000000001" = some ⟨1⟩ := by decide +kernel
  have huuid : entryUuid (calling type) = some ⟨1⟩ := by
    simp [entryUuid, calling, find, YAMLNode.get, uuidKey, taskKey, asString, YAMLNode.asString, Except.mapError,
      Except.toOption, hparsed]
  rw [entryOf, hentries, List.find?_cons_of_pos (by simp [huuid])]

end Sample

theorem makeDag_fires_iff_sample : ∃ g m',
    Returns (makeDag Sample.library (Sample.document [Sample.calling "Function"])) Sample.memory g m' ∧
    ∀ t, TaskFrom g m' ⟨1⟩ t → t.Fires id (.function 0) := by
  have hany : ((makeDag Sample.library (Sample.document [Sample.calling "Function"])).run Sample.memory).toOption.any
      (fun _ => true) = true := by decide +kernel
  obtain ⟨g, m', hr, -⟩ := exists_returns hany
  obtain ⟨hl, hs, ht⟩ := Sample.calling_names "Function"
  have hx := Sample.calling_has (.function hl hs ht (by decide +kernel) rfl rfl)
  exact ⟨g, m', hr, (makeDag_fires_iff (fun _ => rfl) hr (Sample.entryOf_calling _) hx).mpr trivial⟩

/-- The task calls the copy, and not the plugin. -/
theorem makeDag_fires_fails : ∃ g m' t,
    Returns (makeDag Sample.library (Sample.document [Sample.calling "Plugin"])) Sample.memory g m' ∧
    HasCallback Sample.library (Sample.calling "Plugin") (.plugin true) ∧ TaskFrom g m' ⟨1⟩ t ∧
    t.complete true = [.plugin false true] ∧ ¬ t.Fires id (.plugin true) := by
  have hany : ((makeDag Sample.library (Sample.document [Sample.calling "Plugin"])).run Sample.memory).toOption.any
      (fun r => r.1.graph = [0] ∧ (r.2.vertex 0).any (fun v => v.uuid = ⟨1⟩ ∧
        v.task.any (fun t => t.completeCallback = none ∧ t.completeCallbackPlugin = some false) = true) = true) = true := by
    decide +kernel
  obtain ⟨g, m', hr, hp⟩ := exists_returns hany
  obtain ⟨hgraph, hv⟩ := of_decide_eq_true hp
  obtain ⟨v, hv, hp⟩ := (Option.any_eq_true ..).mp hv
  obtain ⟨hu, ht⟩ := of_decide_eq_true hp
  obtain ⟨t, ht, hp⟩ := (Option.any_eq_true ..).mp ht
  obtain ⟨hfunction, hplugin⟩ := of_decide_eq_true hp
  have hcomplete : t.complete true = [.plugin false true] := by simp [Task.complete, hfunction, hplugin]
  obtain ⟨hl, hs, htype⟩ := Sample.calling_names "Plugin"
  have hx := Sample.calling_has (.plugin hl hs htype (by decide +kernel) rfl)
  have hgraph : g.graph = [0] := hgraph
  have hmem : 0 ∈ g.graph := by simp [hgraph]
  refine ⟨g, m', t, hr, hx, .copied (.held .start hmem hv) hu ht, hcomplete, fun hfires => ?_⟩
  have := hfires true
  simp [hcomplete, Notification.map, Export.call] at this

end YAMLDagDeserializer

end DagScheduler.Graphs

import DagScheduler.GraphProofs.WellFormed

/-! What a task that was moved or cloned still does: its stages run as before, but only some of its
callbacks come along. -/

namespace DagScheduler.Graphs

def Sample.told (f : Option CompleteCallback) (p : Option Unit) : Task Unit Unit :=
  { Sample.task₁ with
    completeCallback := f
    completeCallbackPlugin := p
    jsonConfig := some .null
    jsonInitialInputs := some .null }

variable {σ π β : Type}

def Notification.map (behaviour : π → β) : Notification π → Notification β
  | .callback f status => .callback f status
  | .plugin p status => .plugin (behaviour p) status

namespace Task

variable [TaskStage σ] {behaviour : π → β} {t t' x : Task σ π}

def runs (behaviour : π → β) (outcome : ℕ → Outcome) (status : Bool) (t : Task σ π) :
    Bool × List StageEvent × List (Notification β) :=
  let (ranAll, calls, t) := t.iterateStages outcome
  (ranAll, calls, (t.complete status).map (Notification.map behaviour))

structure Preserves (behaviour : π → β) (t t' : Task σ π) : Prop where
  runs : ∀ outcome status, t'.runs behaviour outcome status = t.runs behaviour outcome status
  uuid : t'.uuid = t.uuid
  label : t'.label = t.label
  jsonConfig : t'.jsonConfig = t.jsonConfig
  jsonInitialInputs : t'.jsonInitialInputs = t.jsonInitialInputs

lemma allOf_congr {stages stages' : List σ} (hl : stages'.map TaskStage.label = stages.map TaskStage.label)
    (outcome : ℕ → Outcome) (kill : Bool) (i : ℕ) : allOf outcome kill i stages' = allOf outcome kill i stages := by
  induction stages generalizing stages' kill i with
  | nil =>
    obtain rfl := List.map_eq_nil_iff.mp hl
    rfl
  | cons next stages ih =>
    obtain ⟨next', stages', rfl, hnext, hstages⟩ := List.map_eq_cons_iff.mp hl
    simp only [allOf, hnext, ih hstages]

omit [TaskStage σ] in
lemma complete_map (t : Task σ π) (status : Bool) :
    (t.complete status).map (Notification.map behaviour) =
      (t.completeCallback.map fun f => .callback f status).toList ++
        ((t.completeCallbackPlugin.map behaviour).map fun p => .plugin p status).toList := by
  rw [complete, List.map_append]
  cases t.completeCallback <;> cases t.completeCallbackPlugin <;> rfl

lemma notified_iff {f f' : Option CompleteCallback} {p p' : Option β} {status : Bool} :
    (f'.map fun f => Notification.callback f status).toList ++ (p'.map fun p => .plugin p status).toList =
      (f.map fun f => .callback f status).toList ++ (p.map fun p => .plugin p status).toList ↔ f' = f ∧ p' = p := by
  cases f <;> cases f' <;> cases p <;> cases p' <;> simp

lemma runs_eq_iff (hi : t.iterating = false) (hi' : t'.iterating = false) (hk : t'.kill = t.kill)
    (hl : t'.stages.map TaskStage.label = t.stages.map TaskStage.label) (hu : t'.uuid = t.uuid) :
    (∀ outcome status, t'.runs behaviour outcome status = t.runs behaviour outcome status) ↔
      t'.completeCallback = t.completeCallback ∧
        t'.completeCallbackPlugin.map behaviour = t.completeCallbackPlugin.map behaviour := by
  have hruns : ∀ outcome status, t'.runs behaviour outcome status = t.runs behaviour outcome status ↔
      t'.completeCallback = t.completeCallback ∧
        t'.completeCallbackPlugin.map behaviour = t.completeCallbackPlugin.map behaviour := by
    intro outcome status
    simp only [runs, iterateStages, hi, hi', hk, allOf_congr hl, Bool.false_eq_true, if_false, complete_map, hu,
      Prod.mk.injEq, true_and, notified_iff]
  exact ⟨fun h => (hruns (fun _ => ⟨true, true, false⟩) true).mp (h _ _), fun h outcome status =>
    (hruns outcome status).mpr h⟩

lemma preserves_iff (hi : t.iterating = false) (hi' : t'.iterating = false) (hk : t'.kill = t.kill)
    (hs : t'.stages.map TaskStage.label = t.stages.map TaskStage.label) (hu : t'.uuid = t.uuid)
    (hl : t'.label = t.label) :
    Preserves behaviour t t' ↔ (t'.completeCallback = t.completeCallback ∧
      t'.completeCallbackPlugin.map behaviour = t.completeCallbackPlugin.map behaviour) ∧
      t'.jsonConfig = t.jsonConfig ∧ t'.jsonInitialInputs = t.jsonInitialInputs := by
  rw [← runs_eq_iff hi hi' hk hs hu]
  exact ⟨fun h => ⟨h.runs, h.jsonConfig, h.jsonInitialInputs⟩, fun ⟨hr, hc, hj⟩ => ⟨hr, hu, hl, hc, hj⟩⟩

lemma moveConstruct_preserves (behaviour : π → β) (hi : t.iterating = false) (hk : t.kill = false) :
    ∃ t' rest, t.moveConstruct = some (t', rest) ∧
      (Preserves behaviour t t' ↔ t.callbackIsSet = false ∧ t.callbackPluginIsSet = false) := by
  refine ⟨_, _, by rw [moveConstruct, if_neg (by simp [hi])], ?_⟩
  refine Iff.trans (preserves_iff hi ?_ ?_ ?_ ?_ ?_) ?_
  · rfl
  · exact hk.symm
  · rfl
  · rfl
  · rfl
  · simp only [callbackIsSet, callbackPluginIsSet, and_true]
    cases t.completeCallback <;> cases t.completeCallbackPlugin <;> simp

lemma moveAssign_preserves (behaviour : π → β) (hi : t.iterating = false) (hk : t.kill = false) (x : Task σ π) :
    ∃ x' rest, x.moveAssign t = some (x', rest) ∧
      (Preserves behaviour t x' ↔ x.completeCallback = t.completeCallback ∧
        x.completeCallbackPlugin.map behaviour = t.completeCallbackPlugin.map behaviour) := by
  refine ⟨_, _, by rw [moveAssign, if_neg (by simp [hi])], ?_⟩
  refine Iff.trans (preserves_iff hi ?_ ?_ ?_ ?_ ?_) ?_
  · rfl
  · exact hk.symm
  · rfl
  · rfl
  · rfl
  · simp only [and_true]

variable [TaskCallbackPlugin π]

lemma clone_preserves (hstage : ∀ s : σ, TaskStage.label (TaskStage.clone s) = TaskStage.label s)
    (hplugin : ∀ p : π, behaviour (TaskCallbackPlugin.clone p) = behaviour p) (hi : t.iterating = false)
    (hk : t.kill = false) :
    Preserves behaviour t t.clone ↔ (t.callbackIsSet = false ∨ t.callbackPluginIsSet = false) ∧
      t.jsonConfig.isSome ∧ t.jsonInitialInputs.isSome := by
  have hlabels : t.clone.stages.map TaskStage.label = t.stages.map TaskStage.label := by
    simp [clone, Function.comp_def, hstage]
  have hplugins : t.clone.completeCallbackPlugin.map behaviour = t.completeCallbackPlugin.map behaviour := by
    simp [clone, Function.comp_def, hplugin]
  have hfunction : t.clone.completeCallback = t.completeCallback ↔
      t.callbackIsSet = false ∨ t.callbackPluginIsSet = false := by
    cases hf : t.completeCallback <;> cases hp : t.completeCallbackPlugin <;>
      simp [clone, callbackIsSet, callbackPluginIsSet, hf, hp]
  have hdocument : ∀ d : Option Document, some (d.getD .null) = d ↔ d.isSome := by
    intro d
    cases d <;> simp
  rw [preserves_iff hi rfl hk.symm hlabels rfl rfl, hfunction]
  simp only [hplugins, and_true]
  exact and_congr_right fun _ => and_congr (hdocument _) (hdocument _)

/-- A task that was moved keeps its callbacks only if it has none, a task that was moved into has
those it had before, and a clone drops the function where there is a plugin. -/
theorem moves_preserve (hstage : ∀ s : σ, TaskStage.label (TaskStage.clone s) = TaskStage.label s)
    (hplugin : ∀ p : π, behaviour (TaskCallbackPlugin.clone p) = behaviour p) (hi : t.iterating = false)
    (hk : t.kill = false) :
    (∃ t' rest, t.moveConstruct = some (t', rest) ∧
      (Preserves behaviour t t' ↔ t.callbackIsSet = false ∧ t.callbackPluginIsSet = false)) ∧
    (∀ x : Task σ π, ∃ x' rest, x.moveAssign t = some (x', rest) ∧
      (Preserves behaviour t x' ↔ x.completeCallback = t.completeCallback ∧
        x.completeCallbackPlugin.map behaviour = t.completeCallbackPlugin.map behaviour)) ∧
    (Preserves behaviour t t.clone ↔ (t.callbackIsSet = false ∨ t.callbackPluginIsSet = false) ∧
      t.jsonConfig.isSome ∧ t.jsonInitialInputs.isSome) :=
  ⟨moveConstruct_preserves behaviour hi hk, moveAssign_preserves behaviour hi hk, clone_preserves hstage hplugin hi hk⟩

open Sample

theorem moves_preserve_sample :
    (∃ t' rest, (told none none).moveConstruct = some (t', rest) ∧ (Preserves id (told none none) t' ↔
      (told none none).callbackIsSet = false ∧ (told none none).callbackPluginIsSet = false)) ∧
    (∀ x : Task Unit Unit, ∃ x' rest, x.moveAssign (told none none) = some (x', rest) ∧
      (Preserves id (told none none) x' ↔ x.completeCallback = (told none none).completeCallback ∧
        x.completeCallbackPlugin.map id = (told none none).completeCallbackPlugin.map id)) ∧
    (Preserves id (told none none) (told none none).clone ↔
      ((told none none).callbackIsSet = false ∨ (told none none).callbackPluginIsSet = false) ∧
      (told none none).jsonConfig.isSome ∧ (told none none).jsonInitialInputs.isSome) :=
  moves_preserve (fun _ => rfl) (fun _ => rfl) rfl rfl

/-- The move constructor drops a callback, the move assignment leaves the one it should replace, and
a clone has only the plugin. -/
theorem moves_preserve_fails :
    (∃ t' rest, (told (some 1) none).moveConstruct = some (t', rest) ∧
      ¬ Preserves (id : Unit → Unit) (told (some 1) none) t' ∧ t'.complete true = []) ∧
    (∃ x' rest, (told (some 1) none).moveAssign (told none none) = some (x', rest) ∧
      ¬ Preserves (id : Unit → Unit) (told none none) x' ∧ x'.complete true = [.callback 1 true]) ∧
    ¬ Preserves (id : Unit → Unit) (told (some 1) (some ())) (told (some 1) (some ())).clone ∧
      (told (some 1) (some ())).clone.complete true = [.plugin () true] := by
  refine ⟨?_, ?_, ?_, rfl⟩
  · obtain ⟨t', rest, ht', hiff⟩ := moveConstruct_preserves (id : Unit → Unit) (t := told (some 1) none) rfl rfl
    refine ⟨t', rest, ht', fun hp => ?_, ?_⟩
    · exact absurd (hiff.mp hp).1 (by simp [told, callbackIsSet])
    · obtain ⟨rfl, -⟩ := Prod.mk.inj (Option.some.inj ht')
      rfl
  · obtain ⟨x', rest, hx', hiff⟩ :=
      moveAssign_preserves (id : Unit → Unit) (t := told none none) rfl rfl (told (some 1) none)
    refine ⟨x', rest, hx', fun hp => ?_, ?_⟩
    · exact absurd (hiff.mp hp).1 (by simp [told])
    · obtain ⟨rfl, -⟩ := Prod.mk.inj (Option.some.inj hx')
      rfl
  · intro hp
    have hcallbacks := ((clone_preserves (fun _ => rfl) (fun _ => rfl) rfl rfl).mp hp).1
    simp [callbackIsSet, callbackPluginIsSet, told] at hcallbacks

end Task

end DagScheduler.Graphs

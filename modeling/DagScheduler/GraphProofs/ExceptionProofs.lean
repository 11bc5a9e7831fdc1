import DagScheduler.GraphProofs.StageProofs
import DagScheduler.Graphs.StageExceptions

/-! An exception that leaves `iterate_stages` takes the task's flag with it: the task is being
iterated for ever after. -/

namespace DagScheduler.Graphs

open Library.Programs

variable {σ π ρ χ α β : Type} {s s' : Execution σ π ρ} {x : χ}

namespace Throwing

@[simp] lemma yields_called {c : StageCall} {u : Unit} :
    Yields (called c : Throwing σ π ρ χ Unit) s u s' ↔ s' = s.push c := by simp [called]

@[simp] lemma raises_called {c : StageCall} : ¬ Raises (called c : Throwing σ π ρ χ Unit) s x s' := raises_lift

@[simp] lemma yields_setIterating {b : Bool} {u : Unit} :
    Yields (setIterating b : Throwing σ π ρ χ Unit) s u s' ↔
      s' = { s with task := { s.task with iterating := b } } := by
  simp [setIterating]

@[simp] lemma raises_setIterating {b : Bool} : ¬ Raises (setIterating b : Throwing σ π ρ χ Unit) s x s' :=
  raises_lift

/-- The program leaves a task that iterates iterating, whether it returns or throws. -/
def KeepsIterating (p : Throwing σ π ρ χ α) : Prop :=
  ∀ s r s', s.task.iterating = true → Returns p.run s r s' → s'.task.iterating = true

namespace KeepsIterating

lemma pure (a : α) : KeepsIterating (pure a : Throwing σ π ρ χ α) := by
  intro s r s' hs hr
  obtain ⟨-, rfl⟩ := returns_pure.mp hr
  exact hs

lemma bind {p : Throwing σ π ρ χ α} {k : α → Throwing σ π ρ χ β} (hp : KeepsIterating p)
    (hk : ∀ a, KeepsIterating (k a)) : KeepsIterating (p >>= k) := by
  intro s r s' hs hr
  rcases returns_bind_run.mp hr with ⟨a, u, ha, hr⟩ | ⟨x, -, hx⟩
  · exact hk a u r s' (hp s _ u hs ha) hr
  · exact hp s _ s' hs hx

lemma called (c : StageCall) : KeepsIterating (called c : Throwing σ π ρ χ Unit) := by
  intro s r s' hs hr
  cases r with
  | ok u => rwa [yields_called.mp hr]
  | error x => exact absurd hr raises_called

lemma code (c : ThrowingCode σ π ρ χ α) : KeepsIterating c.run := by
  intro s r s' hs hr
  obtain ⟨n, hn⟩ := c.confined s r s' hs hr
  exact hn.iterating.trans hs

lemma get : KeepsIterating (get : Throwing σ π ρ χ (Execution σ π ρ)) := by
  intro s r s' hs hr
  cases r with
  | ok u => rwa [(yields_get.mp hr).2]
  | error x => exact absurd hr raises_get

end KeepsIterating

variable [ThrowingStage σ π ρ χ] {f : σ → ThrowingCode σ π ρ χ Bool} {i : ℕ} {next : σ} {stages : List σ}

lemma passes_keepsIterating (f : σ → ThrowingCode σ π ρ χ Bool) (i : ℕ) (next : σ) :
    KeepsIterating (passes f i next) := by
  refine (KeepsIterating.called _).bind fun _ => (KeepsIterating.code _).bind fun ran => ?_
  refine (KeepsIterating.called _).bind fun _ => (KeepsIterating.called _).bind fun _ => ?_
  refine (KeepsIterating.code _).bind fun _ => ?_
  cases ran with
  | false => exact .pure false
  | true =>
    refine (KeepsIterating.code _).bind fun ended => (KeepsIterating.called _).bind fun _ => ?_
    cases ended with
    | false => exact .pure false
    | true => exact KeepsIterating.get.bind fun s => (KeepsIterating.called _).bind fun _ => .pure _

lemma allOf_keepsIterating (f : σ → ThrowingCode σ π ρ χ Bool) (i : ℕ) (stages : List σ) :
    KeepsIterating (allOf f i stages) := by
  induction stages generalizing i with
  | nil => exact .pure true
  | cons next stages ih =>
    refine (passes_keepsIterating f i next).bind fun passed => ?_
    cases passed with
    | false => exact .pure false
    | true => exact ih (i + 1)

/-- A call for the `i`-th stage throws: the callback, `cleanup`, or `end` if it is due. -/
inductive Throws (f : σ → ThrowingCode σ π ρ χ Bool) (i : ℕ) (next : σ) (s : Execution σ π ρ) : Prop
  | nextStage {x : χ} {s' : Execution σ π ρ} (hf : Raises (f next).run (s.push (.nextStage i)) x s') :
      Throws f i next s
  | cleanup {ran : Bool} {x : χ} {s₁ s' : Execution σ π ρ}
      (hf : Yields (f next).run (s.push (.nextStage i)) ran s₁)
      (hcleanup : Raises (ThrowingStage.cleanup next).run ((s₁.push (.returned i ran)).push (.cleanup i)) x s') :
      Throws f i next s
  | end {x : χ} {s₁ s₂ s' : Execution σ π ρ} (hf : Yields (f next).run (s.push (.nextStage i)) true s₁)
      (hcleanup : Yields (ThrowingStage.cleanup next : ThrowingCode σ π ρ χ Unit).run
        ((s₁.push (.returned i true)).push (.cleanup i)) () s₂)
      (hend : Raises (ThrowingStage.end next).run s₂ x s') : Throws f i next s

/-- The callback and `end` return true for the `i`-th stage, and the task was not killed. -/
inductive Passed (f : σ → ThrowingCode σ π ρ χ Bool) (i : ℕ) (next : σ) (s : Execution σ π ρ) :
    Execution σ π ρ → Prop
  | intro {s₁ s₂ s₃ : Execution σ π ρ} (hf : Yields (f next).run (s.push (.nextStage i)) true s₁)
      (hcleanup : Yields (ThrowingStage.cleanup next : ThrowingCode σ π ρ χ Unit).run
        ((s₁.push (.returned i true)).push (.cleanup i)) () s₂)
      (hend : Yields (ThrowingStage.end next : ThrowingCode σ π ρ χ Bool).run s₂ true s₃)
      (hkill : s₃.task.kill = false) :
      Passed f i next s ((s₃.push (.end i true)).push (.checked i false))

/-- The stages pass one after the other up to one for which a call throws. -/
inductive Interrupted (f : σ → ThrowingCode σ π ρ χ Bool) : ℕ → List σ → Execution σ π ρ → Prop
  | here {i : ℕ} {next : σ} {stages : List σ} {s : Execution σ π ρ} (throws : Throws f i next s) :
      Interrupted f i (next :: stages) s
  | later {i : ℕ} {next : σ} {stages : List σ} {s s' : Execution σ π ρ} (passed : Passed f i next s s')
      (rest : Interrupted f (i + 1) stages s') : Interrupted f i (next :: stages) s

lemma raises_passes_iff : (∃ x s', Raises (passes f i next) s x s') ↔ Throws f i next s := by
  simp only [passes, raises_bind, raises_called, yields_called, false_or, exists_eq_left, exists_const]
  constructor
  · rintro ⟨x, s', hf | ⟨ran, s₁, hf, hcleanup | ⟨_, s₂, hcleanup, hrest⟩⟩⟩
    · exact .nextStage hf
    · exact .cleanup hf hcleanup
    · cases ran with
      | false => simp at hrest
      | true =>
        simp only [if_true, raises_bind, raises_called, yields_called, false_or, exists_eq_left, exists_const] at hrest
        obtain hend | ⟨ended, s₃, -, hrest⟩ := hrest
        · exact .end hf hcleanup hend
        · cases ended <;> simp only [Bool.false_eq_true, if_true, if_false, raises_bind, raises_get, raises_called,
            raises_pure, and_false, exists_false, or_self] at hrest
  · intro h
    cases h with
    | nextStage hf => exact ⟨_, _, .inl hf⟩
    | cleanup hf hcleanup => exact ⟨_, _, .inr ⟨_, _, hf, .inl hcleanup⟩⟩
    | @«end» x s₁ s₂ s' hf hcleanup hend =>
      refine ⟨x, s', .inr ⟨true, s₁, hf, .inr ⟨(), s₂, hcleanup, ?_⟩⟩⟩
      simp only [if_true, raises_bind]
      exact .inl hend

lemma yields_passes_iff : Yields (passes f i next) s true s' ↔ Passed f i next s s' := by
  simp only [passes, yields_bind, yields_called, exists_eq_left, exists_const]
  constructor
  · rintro ⟨ran, s₁, hf, _, s₂, hcleanup, hrest⟩
    cases ran with
    | false => simp at hrest
    | true =>
      simp only [if_true, yields_bind, yields_called, exists_eq_left, exists_const] at hrest
      obtain ⟨ended, s₃, hend, hrest⟩ := hrest
      cases ended with
      | false => simp at hrest
      | true =>
        simp only [if_true, yields_bind, yields_called, yields_get, yields_pure, and_assoc, exists_and_left,
          exists_eq_left, exists_const] at hrest
        obtain ⟨hkill, rfl⟩ := hrest
        have hkill' : s₃.task.kill = false := by
          cases h : s₃.task.kill with
          | false => rfl
          | true => simp [Execution.push, h] at hkill
        rw [show (s₃.push (.end i true)).task.kill = false from hkill']
        exact ⟨hf, hcleanup, hend, hkill'⟩
  · rintro @⟨s₁, s₂, s₃, hf, hcleanup, hend, hkill⟩
    refine ⟨true, _, hf, (), _, hcleanup, ?_⟩
    simp only [if_true, yields_bind, yields_called, exists_eq_left, exists_const]
    refine ⟨true, _, hend, ?_⟩
    simp only [if_true, yields_bind, yields_called, yields_get, yields_pure, and_assoc, exists_and_left,
      exists_eq_left, exists_const]
    rw [show (s₃.push (.end i true)).task.kill = false from hkill]
    exact ⟨rfl, rfl⟩

lemma raises_allOf_iff : (∃ x s', Raises (allOf f i stages) s x s') ↔ Interrupted f i stages s := by
  induction stages generalizing s i with
  | nil =>
    constructor
    · rintro ⟨x, s', hr⟩
      simp [allOf] at hr
    · rintro ⟨⟩
  | cons next stages ih =>
    simp only [allOf, raises_bind]
    constructor
    · rintro ⟨x, s', hr | ⟨passed, s₁, hp, hr⟩⟩
      · exact .here (raises_passes_iff.mp ⟨x, s', hr⟩)
      · cases passed with
        | false => simp at hr
        | true => exact .later (yields_passes_iff.mp hp) (ih.mp ⟨x, s', hr⟩)
    · rintro (hthrows | ⟨hpassed, hrest⟩)
      · obtain ⟨x, s', hr⟩ := raises_passes_iff.mpr hthrows
        exact ⟨x, s', .inl hr⟩
      · obtain ⟨x, s', hr⟩ := ih.mpr hrest
        exact ⟨x, s', .inr ⟨true, _, yields_passes_iff.mpr hpassed, hr⟩⟩

lemma raises_iterateStages : Raises (iterateStages f) s x s' ↔
    s.task.iterating = false ∧ Raises (allOf f 0 s.task.stages) s.started x s' := by
  simp only [iterateStages, raises_bind, raises_get, yields_get, false_or, and_assoc, exists_and_left, exists_eq_left]
  cases hs : s.task.iterating with
  | true => simp
  | false =>
    simp only [Bool.false_eq_true, if_false, raises_bind, raises_setIterating, yields_setIterating, raises_get,
      yields_get, raises_pure, false_or, or_false, and_false, exists_false, and_assoc, exists_and_left,
      exists_eq_left, exists_const, true_and]
    rfl

/-- The flag stays set: the task never runs its stages again, and cannot be moved. -/
lemma raises_stuck (h : Raises (iterateStages f) s x s') : s'.task.iterating = true ∧
    (∀ (g : σ → ThrowingCode σ π ρ χ Bool) r t, Returns (iterateStages g).run s' r t ↔ r = .ok false ∧ t = s') ∧
    s'.task.moveConstruct = none ∧ ∀ this : Task σ π, this.moveAssign s'.task = none := by
  obtain ⟨-, hr⟩ := raises_iterateStages.mp h
  have hs' : s'.task.iterating = true := allOf_keepsIterating f 0 s.task.stages s.started _ s' rfl hr
  refine ⟨hs', fun g r t => ?_, by simp [Task.moveConstruct, hs'], fun this => by simp [Task.moveAssign, hs']⟩
  cases r with
  | ok b =>
    have hy : Yields (iterateStages g) s' b t ↔ b = false ∧ t = s' := by
      simp only [iterateStages, yields_bind, yields_get, and_assoc, exists_and_left, exists_eq_left, hs', if_true,
        yields_pure]
    exact hy.trans (and_congr_left' (by simp))
  | error y =>
    have hn : ¬ Raises (iterateStages g) s' y t := fun hr' => by simp [(raises_iterateStages.mp hr').1] at hs'
    exact iff_of_false hn (by simp)

/-- Whatever is thrown out of `iterate_stages`, the task can be iterated again and moved. -/
def Recovers (f : σ → ThrowingCode σ π ρ χ Bool) (s : Execution σ π ρ) : Prop :=
  ∀ x s', Raises (iterateStages f) s x s' → s'.task.iterating = false ∧
    (∀ (g : σ → ThrowingCode σ π ρ χ Bool) r t, s'.task.stages ≠ [] → Returns (iterateStages g).run s' r t →
      ∃ new, t.calls = s'.calls ++ .nextStage 0 :: new) ∧
    s'.task.moveConstruct.isSome ∧ ∀ this : Task σ π, (this.moveAssign s'.task).isSome

theorem recovers_iff (f : σ → ThrowingCode σ π ρ χ Bool) (s : Execution σ π ρ) :
    Recovers f s ↔ s.task.iterating = true ∨ ¬ Interrupted f 0 s.task.stages s.started := by
  have hraises : (∃ x s', Raises (iterateStages f) s x s') ↔
      s.task.iterating = false ∧ Interrupted f 0 s.task.stages s.started := by
    simp only [raises_iterateStages, ← raises_allOf_iff, exists_and_left]
  constructor
  · intro hf
    by_contra hc
    obtain ⟨hs, hi⟩ := not_or.mp hc
    obtain ⟨x, s', hr⟩ := hraises.mpr ⟨by simpa using hs, not_not.mp hi⟩
    exact Bool.false_ne_true ((hf x s' hr).1.symm.trans (raises_stuck hr).1)
  · intro hc x s' hr
    obtain ⟨hs, hi⟩ := hraises.mp ⟨x, s', hr⟩
    rcases hc with hs' | hn
    · simp [hs] at hs'
    · exact absurd hi hn

end Throwing

namespace Sample

instance : ThrowingStage Unit Unit Unit String :=
  ⟨fun _ => (UserCode.pure ()).toThrowing, fun _ => (UserCode.pure true).toThrowing⟩

def throws (_ : Unit) : ThrowingCode Unit Unit Unit String Bool := .throw "stage failed"

end Sample

namespace Throwing

open Sample

theorem recovers_fails : ¬ Recovers throws (execution [()] false) := by
  intro h
  have hi : Interrupted throws 0 [()] (execution [()] false).started :=
    .here (.nextStage (x := "stage failed") (returns_pure.mpr ⟨rfl, rfl⟩))
  obtain ⟨x, s', hall⟩ := raises_allOf_iff.mpr hi
  have hr : Raises (iterateStages throws) (execution [()] false) x s' := raises_iterateStages.mpr ⟨rfl, hall⟩
  exact Bool.false_ne_true ((h x s' hr).1.symm.trans (raises_stuck hr).1)

end Throwing

/-! Code that does not throw runs as before. -/

abbrev StageCode.toThrowing (χ : Type) [StageCode σ π ρ] : ThrowingStage σ π ρ χ where
  cleanup next := (StageCode.cleanup next).toThrowing
  «end» next := (StageCode.end next).toThrowing

namespace Throwing

variable [StageCode σ π ρ]

attribute [local instance] StageCode.toThrowing

lemma passes_toThrowing (f : σ → UserCode σ π ρ Bool) (i : ℕ) (next : σ) :
    (passes (fun next => (f next).toThrowing) i next : Throwing σ π ρ χ Bool) =
      liftM (Execution.passes f i next) := by
  simp only [passes, Execution.passes, liftM_bind, called, UserCode.toThrowing]
  refine bind_congr fun _ => bind_congr fun ran => bind_congr fun _ => bind_congr fun _ => bind_congr fun _ => ?_
  cases ran with
  | false => rfl
  | true =>
    simp only [if_true, liftM_bind]
    refine bind_congr fun ended => bind_congr fun _ => ?_
    cases ended with
    | false => rfl
    | true =>
      simp only [if_true, liftM_bind]
      rfl

lemma allOf_toThrowing (f : σ → UserCode σ π ρ Bool) (i : ℕ) (stages : List σ) :
    (allOf (fun next => (f next).toThrowing) i stages : Throwing σ π ρ χ Bool) =
      liftM (Execution.allOf f i stages) := by
  induction stages generalizing i with
  | nil => rfl
  | cons next stages ih =>
    rw [allOf, Execution.allOf, passes_toThrowing, liftM_bind]
    refine bind_congr fun passed => ?_
    cases passed with
    | false => rfl
    | true => exact ih (i + 1)

end Throwing

end DagScheduler.Graphs

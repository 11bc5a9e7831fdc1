import DagScheduler.Graphs.Task
import DagScheduler.Library.Programs

/-! Running the stages of a task. The callback that is given to `iterate_stages`, and `cleanup` and
`end` of a stage, are code of the user and may call back into the task. -/

namespace DagScheduler.Graphs

open Library.Programs

/-- The calls of an execution in their order, with the place of the stage and what they returned. -/
inductive StageCall where
  | nextStage (i : ℕ)
  | returned (i : ℕ) (ran : Bool)
  | cleanup (i : ℕ)
  | «end» (i : ℕ) (ended : Bool)
  | checked (i : ℕ) (kill : Bool)
  | kill
  deriving DecidableEq

/-- A task, the calls made so far, and whatever else the user's code reads and writes. -/
structure Execution (σ π ρ : Type) where
  task : Task σ π
  calls : List StageCall
  user : ρ

variable {σ π ρ α β : Type}

-- The code of the user returns: it neither throws nor runs forever.
abbrev Running (σ π ρ α : Type) := Program (Execution σ π ρ) Empty α

/-- The calls `new` were made, and the flag of the task is set if one of them was `kill`. -/
structure Stretch (s : Execution σ π ρ) (new : List StageCall) (s' : Execution σ π ρ) : Prop where
  calls : s'.calls = s.calls ++ new
  task : s'.task = { s.task with kill := s.task.kill || new.contains .kill }

namespace Stretch

variable {s s' s'' : Execution σ π ρ} {new new' : List StageCall}

lemma refl (s : Execution σ π ρ) : Stretch s [] s := ⟨by simp, by simp⟩

lemma trans (h : Stretch s new s') (h' : Stretch s' new' s'') : Stretch s (new ++ new') s'' where
  calls := by rw [h'.calls, h.calls, List.append_assoc]
  task := by rw [h'.task, h.task, List.contains_append, Bool.or_assoc]

lemma iterating (h : Stretch s new s') : s'.task.iterating = s.task.iterating := by rw [h.task]

lemma kill (h : Stretch s new s') : s'.task.kill = (s.task.kill || new.contains .kill) := by rw [h.task]

end Stretch

/-- Code of the user. The flags of a task are private: while the task iterates, all that the code
can do to it is to kill it. A kill of another thread is one of the code that runs meanwhile. -/
structure UserCode (σ π ρ α : Type) where
  run : Running σ π ρ α
  confined : ∀ s a s', s.task.iterating = true → Returns run s a s' →
    ∃ n, Stretch s (List.replicate n .kill) s'

class StageCode (σ π ρ : Type) where
  cleanup : σ → UserCode σ π ρ Unit
  «end» : σ → UserCode σ π ρ Bool

namespace Execution

def push (s : Execution σ π ρ) (c : StageCall) : Execution σ π ρ := { s with calls := s.calls ++ [c] }

def called (c : StageCall) : Running σ π ρ Unit := modify fun s => s.push c

def kill : Running σ π ρ Bool := do
  modify fun s => { s.push .kill with task := s.task.killed }
  pure (← get).task.kill

def setIterating (b : Bool) : Running σ π ρ Unit :=
  modify fun s => { s with task := { s.task with iterating := b } }

variable [StageCode σ π ρ]

/-- The predicate of `std::all_of`; `kill_` is read only after `end` returned true. -/
def passes (nextStage : σ → UserCode σ π ρ Bool) (i : ℕ) (next : σ) : Running σ π ρ Bool := do
  called (.nextStage i)
  let ran ← (nextStage next).run
  called (.returned i ran)
  called (.cleanup i)
  (StageCode.cleanup next).run
  if ran then
    let ended ← (StageCode.end next).run
    called (.end i ended)
    if ended then
      let kill := (← get).task.kill
      called (.checked i kill)
      pure !kill
    else pure false
  else pure false

def allOf (nextStage : σ → UserCode σ π ρ Bool) : ℕ → List σ → Running σ π ρ Bool
  | _, [] => pure true
  | i, next :: stages => do
    if ← passes nextStage i next then allOf nextStage (i + 1) stages else pure false

def iterateStages (nextStage : σ → UserCode σ π ρ Bool) : Running σ π ρ Bool := do
  if (← get).task.iterating then pure false
  else
    setIterating true
    let ranAll ← allOf nextStage 0 (← get).task.stages
    setIterating false
    pure ranAll

lemma returns_iterateStages_nested {f : σ → UserCode σ π ρ Bool} {s s' : Execution σ π ρ} {b : Bool}
    (hs : s.task.iterating = true) : Returns (iterateStages f) s b s' ↔ b = false ∧ s' = s := by
  simp only [iterateStages, returns_bind, returns_get, and_assoc, exists_and_left, exists_eq_left, hs, if_true,
    returns_pure]

end Execution

/-! What code of the user is made of. -/

namespace UserCode

def pure (a : α) : UserCode σ π ρ α where
  run := Pure.pure a
  confined s _ s' _ hr := by
    obtain ⟨-, rfl⟩ := returns_pure.mp hr
    exact ⟨0, .refl _⟩

def bind (p : UserCode σ π ρ α) (k : α → UserCode σ π ρ β) : UserCode σ π ρ β where
  run := do (k (← p.run)).run
  confined s b s' hs hr := by
    obtain ⟨a, s₁, hp, hk⟩ := returns_bind.mp hr
    obtain ⟨n, hn⟩ := p.confined s a s₁ hs hp
    obtain ⟨l, hl⟩ := (k a).confined s₁ b s' (hn.iterating.trans hs) hk
    refine ⟨n + l, ?_⟩
    rw [List.replicate_add]
    exact hn.trans hl

def own (f : ρ → α × ρ) : UserCode σ π ρ α where
  run := do
    let s ← get
    set { s with user := (f s.user).2 }
    Pure.pure (f s.user).1
  confined s a s' _ hr := by
    simp only [returns_bind, returns_get, returns_set, returns_pure] at hr
    obtain ⟨_, _, ⟨rfl, rfl⟩, _, _, rfl, -, rfl⟩ := hr
    exact ⟨0, by simp, by simp⟩

def kill : UserCode σ π ρ Bool where
  run := Execution.kill
  confined s a s' _ hr := by
    simp only [Execution.kill, returns_bind, returns_modify, returns_get, returns_pure] at hr
    obtain ⟨_, _, rfl, _, _, ⟨rfl, rfl⟩, -, rfl⟩ := hr
    exact ⟨1, rfl, by simp [Task.killed]⟩

variable [StageCode σ π ρ]

def iterateStages (nextStage : σ → UserCode σ π ρ Bool) : UserCode σ π ρ Bool where
  run := Execution.iterateStages nextStage
  confined s b s' hs hr := by
    obtain ⟨-, rfl⟩ := (Execution.returns_iterateStages_nested hs).mp hr
    exact ⟨0, .refl _⟩

end UserCode

end DagScheduler.Graphs

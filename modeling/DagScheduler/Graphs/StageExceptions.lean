import DagScheduler.Graphs.Stages

/-! `iterate_stages` when the code of the user may throw. Nothing there catches an exception: it
leaves with the calls made so far, and with the flags as they are. -/

namespace DagScheduler.Graphs

open Library.Programs

variable {σ π ρ χ α : Type}

-- `χ` is what the code of the user throws.
abbrev Throwing (σ π ρ χ α : Type) := ExceptT χ (Program (Execution σ π ρ) Empty) α

/-- Code of the user, as `UserCode`, whether it returns or throws. -/
structure ThrowingCode (σ π ρ χ α : Type) where
  run : Throwing σ π ρ χ α
  confined : ∀ s r s', s.task.iterating = true → Returns run.run s r s' →
    ∃ n, Stretch s (List.replicate n .kill) s'

class ThrowingStage (σ π ρ χ : Type) where
  cleanup : σ → ThrowingCode σ π ρ χ Unit
  «end» : σ → ThrowingCode σ π ρ χ Bool

namespace Throwing

def called (c : StageCall) : Throwing σ π ρ χ Unit := liftM (Execution.called c : Running σ π ρ Unit)

def setIterating (b : Bool) : Throwing σ π ρ χ Unit := liftM (Execution.setIterating b : Running σ π ρ Unit)

variable [ThrowingStage σ π ρ χ]

def passes (nextStage : σ → ThrowingCode σ π ρ χ Bool) (i : ℕ) (next : σ) : Throwing σ π ρ χ Bool := do
  called (.nextStage i)
  let ran ← (nextStage next).run
  called (.returned i ran)
  called (.cleanup i)
  (ThrowingStage.cleanup next).run
  if ran then
    let ended ← (ThrowingStage.end next).run
    called (.end i ended)
    if ended then
      let kill := (← get).task.kill
      called (.checked i kill)
      pure !kill
    else pure false
  else pure false

def allOf (nextStage : σ → ThrowingCode σ π ρ χ Bool) : ℕ → List σ → Throwing σ π ρ χ Bool
  | _, [] => pure true
  | i, next :: stages => do
    if ← passes nextStage i next then allOf nextStage (i + 1) stages else pure false

def iterateStages (nextStage : σ → ThrowingCode σ π ρ χ Bool) : Throwing σ π ρ χ Bool := do
  if (← get).task.iterating then pure false
  else
    setIterating true
    let ranAll ← allOf nextStage 0 (← get).task.stages
    -- Not reached when a stage throws.
    setIterating false
    pure ranAll

end Throwing

namespace ThrowingCode

def throw (x : χ) : ThrowingCode σ π ρ χ α where
  run := MonadExcept.throw x
  confined s _ s' _ hr := by
    obtain ⟨-, rfl⟩ := returns_pure.mp hr
    exact ⟨0, .refl _⟩

end ThrowingCode

/-- Code that does not throw. -/
def UserCode.toThrowing (c : UserCode σ π ρ α) : ThrowingCode σ π ρ χ α where
  run := liftM c.run
  confined s r s' hs hr := by
    cases r with
    | ok a => exact c.confined s a s' hs (yields_lift.mp hr)
    | error x => exact absurd hr raises_lift

end DagScheduler.Graphs

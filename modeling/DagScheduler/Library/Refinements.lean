import DagScheduler.Library.Transitions

/-! One system carried by another: each step of the first is a step of the second, or none. -/

namespace DagScheduler.Library.Transitions

variable {S T A B : Type*} {M : System S A} {N : System T B}

structure Refinement (M : System S A) (N : System T B) where
  state : S → T
  /-- The step that is seen above; `none` where nothing is. -/
  label : S → A → Option B
  start : state M.start = N.start
  stutters : ∀ s a t, M.Reachable s → M.step s a = some t → label s a = none → state t = state s
  steps : ∀ s a t b, M.Reachable s → M.step s a = some t → label s a = some b →
    N.step (state s) b = some (state t)

namespace Refinement

variable (f : Refinement M N) {h : List (S × A)} {s : S}

def history (h : List (S × A)) : List (T × B) := h.filterMap fun e => (f.label e.1 e.2).map (f.state e.1, ·)

lemma run (run : M.Run h s) : N.Run (f.history h) (f.state s) := by
  induction run with
  | start =>
    rw [f.start]
    exact .start
  | @step h s t a run hs ih =>
    rw [history, List.filterMap_append]
    cases hl : f.label s a with
    | none =>
      rw [f.stutters s a t ⟨h, run⟩ hs hl]
      simpa [hl, history] using ih
    | some b =>
      simpa [hl, history] using ih.step (f.steps s a t b ⟨h, run⟩ hs hl)

lemma reachable (hr : M.Reachable s) : N.Reachable (f.state s) := by
  obtain ⟨h, run⟩ := hr
  exact ⟨_, f.run run⟩

end Refinement

end DagScheduler.Library.Transitions

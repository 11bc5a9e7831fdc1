import DagScheduler.SchedulingProofs.ThreadProofs

/-! What a worker does when it is left alone: it comes to its end. -/

namespace DagScheduler.Scheduling

open Graphs Library.Transitions

variable {σ π : Type} {t t' : TaskThread σ π} {w : ℕ} {outcome : Bool} {pc : WorkerPc σ π}

def WorkerPc.rank : WorkerPc σ π → ℕ
  | .created => 13
  | .started => 12
  | .notified => 11
  | .occupied => 10
  | .running => 9
  | .iterating _ (.next _) => 8
  | .iterating _ (.inStage _) => 7
  | .iterating _ (.ranStage _ _) => 6
  | .iterating _ (.visited _ _) => 5
  | .iterating _ (.allOf _) => 4
  | .iterated _ => 3
  | .holding _ _ => 2
  | .stopped _ _ => 1
  | .finished => 0

/-- The locals of the call are not used any more. -/
def WorkerPc.detached : WorkerPc σ π → Bool
  | .created | .started => false
  | _ => true

namespace TaskThread

def Action.IsWork (a : Action σ π) : Prop := ∃ w outcome, a = .work w outcome

lemma Shape.live (h : t.Shape) (huses : t.uses ≤ 1) (hw : t.workers[w]? = some pc) (hpc : pc ≠ .finished) :
    t.uses = 1 ∧ t.Fits pc ∧ w + 1 = t.workers.length := by
  have hmem := List.mem_of_getElem? hw
  cases h with
  | quiet uses calm => exact absurd (calm.workers pc hmem) hpc
  | stored uses calm => exact absurd (calm.workers pc hmem) hpc
  | single uses ws pc' workers old fits =>
    rcases append_cases (workers ▸ hw) with hold | ⟨rfl, rfl⟩
    · exact absurd (old pc (List.mem_of_getElem? hold)) hpc
    · exact ⟨uses, fits, by simp [workers]⟩
  | doomed uses => omega

lemma Shape.calm (h : t.Shape) (huses : t.uses ≤ 1) (hw : t.workers.getLast? = some .finished) : t.Calm := by
  cases h with
  | quiet uses calm => exact calm
  | stored uses calm => exact calm
  | single uses ws pc workers old fits =>
    obtain rfl : pc = .finished := by simpa [workers] using hw
    refine ⟨fits.2.1, fits.2.2, ?_⟩
    intro p hp
    rcases List.mem_append.mp (workers ▸ hp) with hp | hp
    · exact old p hp
    · exact List.mem_singleton.mp hp
  | doomed uses => omega

lemma Fits.work (h : t.Fits pc) (hfree : t.Undisturbed) (hw : t.workers[w]? = some pc) (hpc : pc ≠ .finished) (outcome : Bool) :
    (t.work w outcome).isSome := by
  cases pc with
  | created =>
    simp only [TaskThread.work, hw]
    split <;> rfl
  | started =>
    simp only [TaskThread.work, hw]
    split
    · rfl
    · split <;> rfl
  | running =>
    obtain ⟨job, hjob⟩ := Option.isSome_iff_exists.mp h.1
    simp only [TaskThread.work, hw, hjob]
    split <;> rfl
  | iterating ticket pc =>
    obtain ⟨job, hjob, rfl⟩ := Option.map_eq_some_iff.mp h.1
    simp only [TaskThread.work, hw, hjob, if_true]
    cases pc with
    | next k =>
      have hlock : t.locked = false := locked_eq_false.mpr ⟨h.2.2, hfree⟩
      simp only [iterateStages, hlock]
      split <;> rfl
    | visited k cont =>
      simp only [iterateStages]
      split <;> rfl
    | _ => rfl
  | stopped tmp allRan =>
    obtain ⟨job, rfl⟩ := Option.isSome_iff_exists.mp h.2.1
    simp [TaskThread.work, hw]
  | finished => exact absurd rfl hpc
  | _ => simp [TaskThread.work, hw]

lemma Works.fault_eq (h : Works t w outcome pc t') (hfits : t.Fits pc)
    (hframe : pc.detached = false → t.call.frame = some w) : t'.fault = t.fault := by
  cases h with
  | dangling frame early => rcases early with rfl | rfl <;> exact absurd (hframe rfl) frame
  | gone task uses => rcases uses with rfl | ⟨ticket, pc, rfl⟩ <;> simp [Fits, task] at hfits
  | stale job ticket pc task other => simp [Fits, task, other] at hfits
  | null => simp [Fits] at hfits
  | _ => rfl

lemma Works.down (h : Works t w false pc t') (hf : t'.fault = none) :
    ∃ pc', t'.workers = t.workers.set w pc' ∧ pc'.rank < pc.rank ∧
      (pc'.detached = false → t'.call.frame = some w) := by
  cases h with
  | start frame => exact ⟨_, rfl, by simp [WorkerPc.rank], fun _ => frame⟩
  | dangling | gone | stale | null => simp [fail] at hf
  | pass job k task ended => simp at ended
  | _ => exact ⟨_, rfl, by simp [WorkerPc.rank], by simp [WorkerPc.detached]⟩

lemma leads_calm (hr : system.Reachable t) (hf : t.fault = none) (huses : t.uses ≤ 1)
    (hw : t.workers[w]? = some pc) (hlast : w + 1 = t.workers.length)
    (hframe : pc.detached = false → t.call.frame = some w) (hfree : t.Undisturbed) :
    ∃ t', system.Leads Action.IsWork t t' ∧ t'.fault = none ∧ t'.Calm ∧ t'.Undisturbed := by
  induction hn : pc.rank using Nat.strong_induction_on generalizing t pc with
  | _ n ih =>
    by_cases hpc : pc = .finished
    · refine ⟨t, .refl t, hf, ((sound hr).shape hf).calm huses ?_, hfree⟩
      rw [List.getLast?_eq_getElem?, ← hlast, Nat.add_sub_cancel, hw, hpc]
    · obtain ⟨-, hfits, -⟩ := ((sound hr).shape hf).live huses hw hpc
      obtain ⟨u, hs⟩ := Option.isSome_iff_exists.mp (hfits.work hfree hw hpc false)
      obtain ⟨p, hp, hworks⟩ := work_cases hs
      obtain rfl := Option.some.inj (hw.symm.trans hp)
      have hfu : u.fault = none := (hworks.fault_eq hfits hframe).trans hf
      obtain ⟨pc', hworkers, hlt, hframe'⟩ := hworks.down hfu
      have hstep : t.step (.work w false) = some u := by simpa [TaskThread.step, hf] using hs
      have hw' : u.workers[w]? = some pc' := by
        rw [hworkers, List.getElem?_set_self (List.getElem?_eq_some_iff.mp hw).1]
      obtain ⟨t', hrest, hdone⟩ := ih pc'.rank (hn ▸ hlt) (reachable_step hr hstep) hfu
        (hworks.frame.1 ▸ huses) hw' (by simpa [hworkers] using hlast) hframe' (hworks.undisturbed hfree) rfl
      exact ⟨t', .head ⟨w, false, rfl⟩ hstep hrest, hdone⟩

lemma leads_idle (hl : system.Leads Action.IsWork t t') (hr : system.Reachable t) (hidle : t.call = .idle) :
    t'.call = .idle := by
  refine hl.invariant (I := fun t => t.call = .idle) ?_ hr hidle
  rintro t a t' - ⟨w, outcome, rfl⟩ hidle hs
  rcases (step_inside (a := .work w outcome) rfl hs).call with hcall | ⟨v, hcall, -⟩
  · exact hcall.trans hidle
  · simp [hidle] at hcall

lemma leads_free (hr : system.Reachable t) (hf : t.fault = none) (hidle : t.call = .idle) (hfree : t.Undisturbed) :
    ∃ t', system.Leads Action.IsWork t t' ∧ t'.fault = none ∧ t'.call = .idle ∧ t'.running = false ∧
      t'.locked = false := by
  cases (sound hr).shape hf with
  | quiet uses calm =>
    exact ⟨t, .refl t, hf, hidle, calm.running, locked_eq_false.mpr ⟨calm.taskLock, hfree⟩⟩
  | stored uses calm thread call => simp [hidle] at call
  | single uses ws pc workers old fits =>
    have hw : t.workers[ws.length]? = some pc := by simp [workers]
    by_cases hpc : pc.detached = true
    · obtain ⟨t', hl, hf', hcalm, hfree'⟩ := leads_calm hr hf uses.le hw (by simp [workers]) (by simp [hpc]) hfree
      exact ⟨t', hl, hf', leads_idle hl hr hidle, hcalm.running, locked_eq_false.mpr ⟨hcalm.taskLock, hfree'⟩⟩
    · refine ⟨t, .refl t, hf, hidle, ?_⟩
      cases pc with
      | created | started => exact ⟨fits.1, locked_eq_false.mpr ⟨fits.2, hfree⟩⟩
      | _ => exact absurd rfl hpc
  | doomed uses thread call => simp [hidle] at call

end TaskThread

end DagScheduler.Scheduling

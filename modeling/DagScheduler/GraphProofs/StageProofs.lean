import DagScheduler.GraphProofs.WellFormed
import DagScheduler.Graphs.Stages

/-! What `iterate_stages` runs: the longest prefix of the stages that succeeds, whatever the code of
the user does meanwhile. -/

namespace DagScheduler.Graphs

open Library.Programs

variable {σ π ρ α β : Type} {s s' s'' : Execution σ π ρ} {new new' : List StageCall}

/-- What was seen of one stage: what `next_stage` and `end` returned, and `kill_` when it was read. -/
structure Visit where
  ran : Bool
  ended : Bool
  kill : Bool

namespace Visit

def passed (v : Visit) : Bool := v.ran && v.ended && !v.kill

/-- The calls for the `i`-th stage. `end` is called if the callback returned true, and `kill_` read
if `end` did too. -/
def calls (i : ℕ) (v : Visit) : List StageCall :=
  [.nextStage i, .returned i v.ran, .cleanup i] ++
    if v.ran then .end i v.ended :: if v.ended then [.checked i v.kill] else [] else []

def callsFrom : ℕ → List Visit → List StageCall
  | _, [] => []
  | i, v :: visits => v.calls i ++ callsFrom (i + 1) visits

end Visit

/-- The visits are those of a prefix of `n` stages, up to the first that does not pass. -/
structure LongestPrefix (n : ℕ) (visits : List Visit) (ranAll : Bool) : Prop where
  within : visits.length ≤ n
  passed : ∀ v ∈ visits.dropLast, v.passed = true
  stopped : visits.length < n → ∃ v ∈ visits.getLast?, v.passed = false
  result : ranAll = true ↔ visits.length = n ∧ ∀ v ∈ visits, v.passed = true

namespace LongestPrefix

lemma nil : LongestPrefix 0 [] true := ⟨le_refl 0, by simp, by simp, by simp⟩

lemma stop {v : Visit} (hv : v.passed = false) (n : ℕ) : LongestPrefix (n + 1) [v] false where
  within := by simp
  passed := by simp
  stopped _ := ⟨v, by simp, hv⟩
  result := by simp [hv]

lemma ne_nil {n : ℕ} {visits : List Visit} {b : Bool} (h : LongestPrefix n visits b) (hn : 0 < n) :
    visits ≠ [] := by
  rintro rfl
  obtain ⟨v, hv, -⟩ := h.stopped hn
  simp at hv

lemma cons {n : ℕ} {v : Visit} {visits : List Visit} {b : Bool} (hv : v.passed = true)
    (h : LongestPrefix n visits b) : LongestPrefix (n + 1) (v :: visits) b where
  within := by simpa using h.within
  passed w hw := by
    cases visits with
    | nil => simp at hw
    | cons x xs =>
      rcases List.mem_cons.mp hw with rfl | hw
      · exact hv
      · exact h.passed w hw
  stopped hlt := by
    have hlt' : visits.length < n := by simpa using hlt
    obtain ⟨w, hw, hp⟩ := h.stopped hlt'
    cases visits with
    | nil => simp at hw
    | cons x xs => exact ⟨w, by simpa using hw, hp⟩
  result := by simp [h.result, hv]

end LongestPrefix

lemma Stretch.push {c : StageCall} (hc : c ≠ .kill) (s : Execution σ π ρ) : Stretch s [c] (s.push c) where
  calls := rfl
  task := by
    have hn : [c].contains .kill = false := by simpa using hc.symm
    rw [hn, Bool.or_false]
    rfl

namespace Execution

@[simp] lemma returns_called {c : StageCall} {u : Unit} :
    Returns (called c) s u s' ↔ s' = s.push c := by simp [called]

@[simp] lemma returns_setIterating {b : Bool} {u : Unit} :
    Returns (setIterating b) s u s' ↔ s' = { s with task := { s.task with iterating := b } } := by
  simp [setIterating]

end Execution

lemma UserCode.stretch (c : UserCode σ π ρ α) (hs : s.task.iterating = true) :
    ∃ a n s', Returns c.run s a s' ∧ Stretch s (List.replicate n .kill) s' := by
  obtain ⟨a, s', hr⟩ := returns_total c.run s
  obtain ⟨n, hn⟩ := c.confined s a s' hs hr
  exact ⟨a, n, s', hr, hn⟩

variable [StageCode σ π ρ] {f : σ → UserCode σ π ρ Bool} {i : ℕ} {next : σ} {stages : List σ}

namespace Execution

structure Visits (i : ℕ) (s : Execution σ π ρ) (v : Visit) (rest : List StageCall) (s' : Execution σ π ρ) : Prop where
  stretch : Stretch s (.nextStage i :: rest) s'
  calls : (.nextStage i :: rest).filter (· ≠ .kill) = v.calls i
  started : ∀ j, .nextStage j ∉ rest
  killed : s.task.kill = true ∨ .kill ∈ rest → v.passed = false
  noticed : v.kill = true → s.task.kill = true ∨ .kill ∈ rest

/-- What a visit says is what the callback, `cleanup` and `end` of the stage did, each from where the one
before it left off, and what `kill_` was after them. -/
inductive Runs (f : σ → UserCode σ π ρ Bool) (i : ℕ) (next : σ) (s : Execution σ π ρ) : Visit → Execution σ π ρ → Prop
  | refused {s₁ s₂ : Execution σ π ρ} (ran : Returns (f next).run (s.push (.nextStage i)) false s₁)
      (cleaned : Returns (StageCode.cleanup next : UserCode σ π ρ Unit).run
        ((s₁.push (.returned i false)).push (.cleanup i)) () s₂) : Runs f i next s ⟨false, false, false⟩ s₂
  | unended {s₁ s₂ s₃ : Execution σ π ρ} (ran : Returns (f next).run (s.push (.nextStage i)) true s₁)
      (cleaned : Returns (StageCode.cleanup next : UserCode σ π ρ Unit).run
        ((s₁.push (.returned i true)).push (.cleanup i)) () s₂)
      (ended : Returns (StageCode.end next : UserCode σ π ρ Bool).run s₂ false s₃) :
      Runs f i next s ⟨true, false, false⟩ (s₃.push (.end i false))
  | checked {s₁ s₂ s₃ : Execution σ π ρ} (ran : Returns (f next).run (s.push (.nextStage i)) true s₁)
      (cleaned : Returns (StageCode.cleanup next : UserCode σ π ρ Unit).run
        ((s₁.push (.returned i true)).push (.cleanup i)) () s₂)
      (ended : Returns (StageCode.end next : UserCode σ π ρ Bool).run s₂ true s₃) :
      Runs f i next s ⟨true, true, s₃.task.kill⟩ ((s₃.push (.end i true)).push (.checked i s₃.task.kill))

/-- The visits of the stages from the `i`-th on, one after the other. -/
inductive RunsThrough (f : σ → UserCode σ π ρ Bool) : ℕ → List σ → Execution σ π ρ → List Visit → Execution σ π ρ → Prop
  | stop (i : ℕ) (stages : List σ) (s : Execution σ π ρ) : RunsThrough f i stages s [] s
  | visit {i : ℕ} {next : σ} {stages : List σ} {s t s' : Execution σ π ρ} {v : Visit} {visits : List Visit}
      (runs : Runs f i next s v t) (rest : RunsThrough f (i + 1) stages t visits s') :
      RunsThrough f i (next :: stages) s (v :: visits) s'

lemma passes_visits (f : σ → UserCode σ π ρ Bool) (i : ℕ) (next : σ) (hs : s.task.iterating = true) :
    ∃ v rest s', Returns (passes f i next) s v.passed s' ∧ Visits i s v rest s' ∧ Runs f i next s v s' := by
  have h₁ := Stretch.push (c := .nextStage i) (by simp) s
  obtain ⟨ran, n, s₂, hf, h₂⟩ := (f next).stretch (h₁.iterating.trans hs)
  have h₃ := Stretch.push (c := .returned i ran) (by simp) s₂
  have h₄ := Stretch.push (c := .cleanup i) (by simp) (s₂.push (.returned i ran))
  have h₁₄ := (h₁.trans h₂).trans (h₃.trans h₄)
  obtain ⟨_, k, s₅, hcleanup, h₅⟩ := (StageCode.cleanup next : UserCode σ π ρ Unit).stretch (h₁₄.iterating.trans hs)
  have h₁₅ := h₁₄.trans h₅
  have hstart {b : Bool} {s' : Execution σ π ρ} (hrest : Returns (if ran then do
        let ended ← (StageCode.end next).run
        called (.end i ended)
        if ended then
          let kill := (← get).task.kill
          called (.checked i kill)
          pure !kill
        else pure false
      else pure false) s₅ b s') : Returns (passes f i next) s b s' := by
    simp only [passes, returns_bind, returns_called]
    exact ⟨(), _, rfl, ran, s₂, hf, (), _, rfl, (), _, rfl, (), s₅, hcleanup, hrest⟩
  cases ran with
  | false =>
    refine ⟨⟨false, false, false⟩, _, s₅, hstart (by simp [Visit.passed]), ⟨h₁₅, ?_, ?_, ?_, ?_⟩, .refused hf hcleanup⟩
    · simp [Visit.calls]
    · simp
    · exact fun _ => rfl
    · simp
  | true =>
    obtain ⟨ended, l, s₆, hend, h₆⟩ := (StageCode.end next : UserCode σ π ρ Bool).stretch (h₁₅.iterating.trans hs)
    have h₇ := Stretch.push (c := .end i ended) (by simp) s₆
    have h₁₇ := h₁₅.trans (h₆.trans h₇)
    cases ended with
    | false =>
      refine ⟨⟨true, false, false⟩, _, _, hstart ?_, ⟨h₁₇, ?_, ?_, ?_, ?_⟩, .unended hf hcleanup hend⟩
      · simp only [if_true, returns_bind, returns_called]
        exact ⟨false, s₆, hend, (), _, rfl, by simp [Visit.passed]⟩
      · simp [Visit.calls]
      · simp
      · exact fun _ => rfl
      · simp
    | true =>
      have h₈ := Stretch.push (c := .checked i s₆.task.kill) (by simp) (s₆.push (.end i true))
      let kills (n : ℕ) := List.replicate n StageCall.kill
      let rest := kills n ++ [.returned i true, .cleanup i] ++ kills k ++ kills l ++
        [.end i true, .checked i s₆.task.kill]
      have h₁₈ : Stretch s (.nextStage i :: rest) ((s₆.push (.end i true)).push (.checked i s₆.task.kill)) := by
        simpa [rest, kills] using h₁₇.trans h₈
      have hflag : s₆.task.kill = true ↔ s.task.kill = true ∨ .kill ∈ rest := by
        rw [(h₁₅.trans h₆).kill, Bool.or_eq_true]
        simp [rest, kills]
      refine ⟨⟨true, true, s₆.task.kill⟩, rest, _, hstart ?_, ⟨h₁₈, ?_, ?_, ?_, hflag.mp⟩, .checked hf hcleanup hend⟩
      · simp only [if_true, returns_bind, returns_called]
        refine ⟨true, s₆, hend, (), _, rfl, ?_⟩
        simp only [if_true, returns_bind, returns_get, returns_called]
        exact ⟨_, _, ⟨rfl, rfl⟩, (), _, rfl, by simp [Visit.passed, push]⟩
      · simp [Visit.calls, rest, kills]
      · simp [rest, kills]
      · intro hk
        simp [Visit.passed, hflag.mpr hk]

def Quiet (calls : List StageCall) : Prop := ∀ pre post, calls = pre ++ .kill :: post → ∀ i, .nextStage i ∉ post

lemma Quiet.append (hq : Quiet new') (hn : .kill ∉ new) : Quiet (new ++ new') := by
  intro pre post h
  rcases List.append_eq_append_iff.mp h with ⟨l, rfl, hl⟩ | ⟨l, rfl, hl⟩
  · exact hq l post hl
  · cases l with
    | nil => exact hq [] post hl.symm
    | cons c l =>
      rw [List.cons_append] at hl
      simp [← (List.cons.inj hl).1] at hn

structure Iterated (i : ℕ) (stages : List σ) (s : Execution σ π ρ) (visits : List Visit) (new : List StageCall)
    (b : Bool) (s' : Execution σ π ρ) : Prop where
  stretch : Stretch s new s'
  longest : LongestPrefix stages.length visits b
  calls : new.filter (· ≠ .kill) = Visit.callsFrom i visits
  quiet : Quiet new
  killed : .kill ∈ new → b = false

lemma allOf_iterated (f : σ → UserCode σ π ρ Bool) (i : ℕ) (stages : List σ) (hs : s.task.iterating = true) :
    ∃ visits new b s', Returns (allOf f i stages) s b s' ∧ Iterated i stages s visits new b s' ∧
      RunsThrough f i stages s visits s' := by
  induction stages generalizing s i with
  | nil =>
    refine ⟨[], [], true, s, by simp [allOf], ⟨.refl s, .nil, rfl, ?_, by simp⟩, .stop i [] s⟩
    intro pre post h
    simp at h
  | cons next stages ih =>
    obtain ⟨v, rest, s₁, hr, hv, hruns⟩ := passes_visits f i next hs
    have hquiet : Quiet (.nextStage i :: rest) := by
      rintro pre post h j hj
      cases pre with
      | nil => simp at h
      | cons c pre =>
        apply hv.started j
        rw [(List.cons.inj h).2]
        exact List.mem_append_right _ (List.mem_cons_of_mem _ hj)
    cases hp : v.passed with
    | false =>
      refine ⟨[v], _, false, s₁, ?_, ⟨hv.stretch, .stop hp _, ?_, hquiet, fun _ => rfl⟩, .visit hruns (.stop _ _ _)⟩
      · simp only [allOf, returns_bind]
        exact ⟨false, s₁, hp ▸ hr, by simp⟩
      · rw [hv.calls, Visit.callsFrom, Visit.callsFrom, List.append_nil]
    | true =>
      have hnone : .kill ∉ rest := fun hmem => by simp [hv.killed (.inr hmem)] at hp
      obtain ⟨visits, new, b, s', hr', h', hrest⟩ := ih (i := i + 1) (hv.stretch.iterating.trans hs)
      refine ⟨v :: visits, _, b, s', ?_, ⟨hv.stretch.trans h'.stretch, .cons hp h'.longest, ?_, ?_, ?_⟩,
        .visit hruns hrest⟩
      · simp only [allOf, returns_bind]
        exact ⟨true, s₁, hp ▸ hr, by simpa using hr'⟩
      · rw [List.filter_append, hv.calls, h'.calls, Visit.callsFrom]
      · exact h'.quiet.append (by simpa using hnone)
      · intro hmem
        apply h'.killed
        simpa [hnone] using hmem

def started (s : Execution σ π ρ) : Execution σ π ρ := { s with task := { s.task with iterating := true } }

def stopped (s : Execution σ π ρ) : Execution σ π ρ := { s with task := { s.task with iterating := false } }

lemma iterateStages_outer (hs : s.task.iterating = false) {b : Bool}
    (hr : Returns (allOf f 0 s.task.stages) s.started b s'') (h : Stretch s.started new s'') :
    Returns (iterateStages f) s b s''.stopped ∧ Stretch s new s''.stopped := by
  refine ⟨?_, h.calls, ?_⟩
  · simp only [iterateStages, returns_bind, returns_get, and_assoc, exists_and_left, exists_eq_left, hs,
      Bool.false_eq_true, if_false, returns_setIterating, returns_pure]
    exact ⟨(), b, s'', hr, rfl, (), rfl⟩
  · rw [stopped, h.task]
    simp [started, hs]

lemma iterateStages_iterated (hs : s.task.iterating = false) : ∃ visits new b t,
    Returns (iterateStages f) s b t.stopped ∧ Iterated 0 s.task.stages s visits new b t.stopped ∧
      RunsThrough f 0 s.task.stages s.started visits t := by
  obtain ⟨visits, new, b, t, hr, h, hruns⟩ := allOf_iterated f 0 s.task.stages (rfl : s.started.task.iterating = true)
  obtain ⟨hr', h'⟩ := iterateStages_outer hs hr h.stretch
  exact ⟨visits, new, b, t, hr', ⟨h', h.longest, h.calls, h.quiet, h.killed⟩, hruns⟩

lemma allOf_congr {f' : σ → UserCode σ π ρ Bool} (hf : ∀ next s b s', s.task.iterating = true →
    (Returns (f next).run s b s' ↔ Returns (f' next).run s b s')) {b : Bool} (hs : s.task.iterating = true) :
    Returns (allOf f i stages) s b s' ↔ Returns (allOf f' i stages) s b s' := by
  have hpasses {s : Execution σ π ρ} (hs : s.task.iterating = true) (i : ℕ) (next : σ) (c : Bool)
      (t : Execution σ π ρ) : Returns (passes f i next) s c t ↔ Returns (passes f' i next) s c t := by
    simp only [passes, returns_bind, returns_called]
    refine exists_congr fun _ => exists_congr fun u => and_congr_right fun hu => ?_
    subst hu
    exact exists_congr fun ran => exists_congr fun u' => and_congr_left' (hf next _ ran u' hs)
  induction stages generalizing s i with
  | nil => rfl
  | cons next stages ih =>
    simp only [allOf, returns_bind]
    refine exists_congr fun c => exists_congr fun t => ?_
    rw [hpasses hs]
    refine and_congr_right fun hp => ?_
    cases c with
    | false => rfl
    | true =>
      obtain ⟨v, rest, t', hr, hv, -⟩ := passes_visits f' i next hs
      obtain ⟨-, rfl⟩ := hp.unique hr
      exact ih (hv.stretch.iterating.trans hs)

lemma iterateStages_congr {f' : σ → UserCode σ π ρ Bool} (hf : ∀ next s b s', s.task.iterating = true →
    (Returns (f next).run s b s' ↔ Returns (f' next).run s b s')) {b : Bool} :
    Returns (iterateStages f) s b s' ↔ Returns (iterateStages f') s b s' := by
  simp only [iterateStages, returns_bind, returns_get, and_assoc, exists_and_left, exists_eq_left]
  cases hs : s.task.iterating with
  | true => rfl
  | false =>
    simp only [Bool.false_eq_true, if_false, returns_bind, returns_setIterating, returns_get, and_assoc,
      exists_and_left, exists_eq_left]
    refine exists_congr fun _ => exists_congr fun c => exists_congr fun t => and_congr_left' ?_
    exact allOf_congr hf rfl

lemma nested_run {x : σ → UserCode σ π ρ Bool} {k : Bool → UserCode σ π ρ β} {b : β} (hs : s.task.iterating = true) :
    Returns ((UserCode.iterateStages x).bind k).run s b s' ↔ Returns (k false).run s b s' := by
  simp only [UserCode.bind, UserCode.iterateStages, returns_bind, returns_iterateStages_nested hs, and_assoc,
    exists_and_left, exists_eq_left]

/-- `iterate_stages` runs the longest prefix of the stages that passes, and a nested call from
inside of the callback only returns false. -/
theorem iterateStages_longest (f : σ → UserCode σ π ρ Bool) (hs : s.task.iterating = false) :
    (∃ visits new ranAll t, Returns (iterateStages f) s ranAll t.stopped ∧
      RunsThrough f 0 s.task.stages s.started visits t ∧ t.stopped.calls = s.calls ++ new ∧
      new.filter (· ≠ .kill) = Visit.callsFrom 0 visits ∧
      LongestPrefix s.task.stages.length visits ranAll ∧ t.stopped.task.iterating = false) ∧
    ∀ {α : Type} (before : σ → UserCode σ π ρ α) (nested : σ → α → σ → UserCode σ π ρ Bool)
      (after : σ → α → Bool → UserCode σ π ρ Bool) (ranAll : Bool) (s' : Execution σ π ρ),
      Returns (iterateStages fun next => (before next).bind fun a =>
        (UserCode.iterateStages (nested next a)).bind (after next a)) s ranAll s' ↔
      Returns (iterateStages fun next => (before next).bind fun a => after next a false) s ranAll s' := by
  constructor
  · obtain ⟨visits, new, b, t, hr, h, hruns⟩ := iterateStages_iterated (f := f) hs
    exact ⟨visits, new, b, t, hr, hruns, h.stretch.calls, h.calls, h.longest, rfl⟩
  · intro α before nested after ranAll s'
    refine iterateStages_congr fun next s b t hs => ?_
    refine returns_bind.trans (Iff.trans ?_ returns_bind.symm)
    refine exists_congr fun a => exists_congr fun u => and_congr_right fun hu => ?_
    obtain ⟨n, hn⟩ := (before next).confined s a u hs hu
    exact nested_run (hn.iterating.trans hs)

end Execution

namespace Sample

instance : StageCode Unit Unit Unit := ⟨fun _ => .pure (), fun _ => .pure true⟩

def execution (stages : List Unit) (kill : Bool) : Execution Unit Unit Unit :=
  ⟨{ task₁ with stages := stages, kill := kill }, [], ()⟩

def go (_ : Unit) : UserCode Unit Unit Unit Bool := .pure true

end Sample

namespace Execution

open Sample

theorem iterateStages_longest_sample :
    ∃ visits new ranAll t, Returns (iterateStages go) (execution [(), ()] false) ranAll t.stopped ∧
      RunsThrough go 0 [(), ()] (execution [(), ()] false).started visits t ∧
      t.stopped.calls = (execution [(), ()] false).calls ++ new ∧ new.filter (· ≠ .kill) = Visit.callsFrom 0 visits ∧
      LongestPrefix (execution [(), ()] false).task.stages.length visits ranAll ∧ t.stopped.task.iterating = false :=
  (iterateStages_longest go rfl).1

def StopsWhenKilled (f : σ → UserCode σ π ρ Bool) (s : Execution σ π ρ) : Prop :=
  ∃ new ranAll s', Returns (iterateStages f) s ranAll s' ∧ s'.calls = s.calls ++ new ∧
    (s.task.kill = true → ranAll = false ∧ ∀ i, .nextStage i ∉ new) ∧
    ∀ pre post, new = pre ++ .kill :: post → ranAll = false ∧ ∀ i, .nextStage i ∉ post

/-- A kill is noticed after the stage that runs, so one that comes before the first is not. -/
theorem stopsWhenKilled_iff (f : σ → UserCode σ π ρ Bool) (s : Execution σ π ρ) :
    StopsWhenKilled f s ↔ s.task.iterating = true ∨ s.task.kill = false := by
  cases hs : s.task.iterating with
  | true =>
    refine iff_of_true ⟨[], false, s, (returns_iterateStages_nested hs).mpr ⟨rfl, rfl⟩, by simp, ?_, ?_⟩ (.inl rfl)
    · exact fun _ => ⟨rfl, fun i => List.not_mem_nil⟩
    · intro pre post h
      simp at h
  | false =>
    obtain ⟨visits, new, b, s', hr, h, -⟩ := iterateStages_iterated (f := f) hs
    simp only [Bool.false_eq_true, false_or]
    constructor
    · rintro ⟨new', b', t, hr', hcalls, hkilled, -⟩
      obtain ⟨rfl, rfl⟩ := hr.unique hr'
      obtain rfl : new = new' := List.append_cancel_left (h.stretch.calls.symm.trans hcalls)
      by_contra hk
      obtain ⟨hfalse, hnone⟩ := hkilled (by simpa using hk)
      rcases Nat.eq_zero_or_pos s.task.stages.length with hzero | hpos
      · have hnil : visits = [] := List.length_eq_zero_iff.mp (Nat.le_zero.mp (hzero ▸ h.longest.within))
        have htrue := h.longest.result.mpr ⟨by rw [hnil, hzero]; rfl, by simp [hnil]⟩
        exact Bool.false_ne_true (hfalse.symm.trans htrue)
      · obtain ⟨v, vs, rfl⟩ := List.exists_cons_of_ne_nil (h.longest.ne_nil hpos)
        have hstart : .nextStage 0 ∈ new.filter (· ≠ .kill) := by
          rw [h.calls]
          simp [Visit.callsFrom, Visit.calls]
        exact hnone 0 (List.mem_filter.mp hstart).1
    · intro hk
      refine ⟨new, b, s'.stopped, hr, h.stretch.calls, by simp [hk], fun pre post hnew => ⟨?_, h.quiet pre post hnew⟩⟩
      exact h.killed (by simp [hnew])

/-- A task that was killed before is said to have run all its stages if it has none, and otherwise
starts the first. -/
theorem stopsWhenKilled_fails :
    ¬ StopsWhenKilled go (execution [] true) ∧ ¬ StopsWhenKilled go (execution [()] true) := by
  constructor
  · rintro ⟨new, ranAll, s', hr, -, hkilled, -⟩
    obtain ⟨b, t, hrun, hb⟩ := exists_returns (p := iterateStages go) (s := execution [] true)
      (q := fun r => r.1) (by decide +kernel)
    obtain ⟨rfl, -⟩ := hr.unique hrun
    exact Bool.false_ne_true ((hkilled rfl).1.symm.trans hb)
  · rintro ⟨new, ranAll, s', hr, hcalls, hkilled, -⟩
    obtain ⟨b, t, hrun, ht⟩ := exists_returns (p := iterateStages go) (s := execution [()] true)
      (q := fun r => r.2.calls.contains (.nextStage 0)) (by decide +kernel)
    obtain ⟨-, rfl⟩ := hr.unique hrun
    apply (hkilled rfl).2 0
    rw [hcalls] at ht
    simpa [execution] using ht

-- The callback of the first of two stages kills the task.
example : ((iterateStages fun _ : Unit => UserCode.kill.bind fun _ => .own fun u => (true, u)).run
    (execution [(), ()] false)).map (fun r => (r.1, r.2.calls)) =
      .ok (false, [.nextStage 0, .kill, .returned 0 true, .cleanup 0, .end 0 true, .checked 0 true]) := rfl

end Execution

/-! Seen from outside, with the labels of the stages, an execution is what `Task.iterateStages` says. -/

def StageCall.event (label : ℕ → String) : StageCall → Option Task.StageEvent
  | nextStage i => some (.nextStage (label i))
  | cleanup i => some (.cleanup (label i))
  | «end» i _ => some (.end (label i))
  | _ => none

/-- The label of the `i`-th stage. -/
def Task.stageLabel [TaskStage σ] (t : Task σ π) (i : ℕ) : String := ((t.stages[i]?).map TaskStage.label).getD ""

lemma events_filter (label : ℕ → String) (calls : List StageCall) :
    (calls.filter (· ≠ .kill)).filterMap (StageCall.event label) = calls.filterMap (StageCall.event label) := by
  rw [List.filterMap_filter]
  apply List.filterMap_congr
  intro c _
  cases c <;> rfl

namespace Task

variable [TaskStage σ]

lemma allOf_outcome_congr {outcome outcome' : ℕ → Outcome} (kill : Bool)
    (ho : ∀ j, i ≤ j → outcome' j = outcome j) :
    allOf outcome' kill i stages = allOf outcome kill i stages := by
  induction stages generalizing kill i with
  | nil => rfl
  | cons next stages ih =>
    have hrest (kill : Bool) := ih kill (fun j hj => ho j (Nat.le_of_succ_le hj))
    simp only [allOf, ho i (le_refl i), hrest]

end Task

namespace Execution

variable [TaskStage σ]

/-- The outcomes are those of the visits, and one of them has `kill` called if `new` has. -/
structure Summarises (i : ℕ) (visits : List Visit) (new : List StageCall) (outcome : ℕ → Task.Outcome) : Prop where
  visited : ∀ j v, visits[j]? = some v → (outcome (i + j)).ran = v.ran ∧ (outcome (i + j)).ended = v.ended
  killed : (∃ j < visits.length, (outcome (i + j)).killed = true) ↔ .kill ∈ new

lemma Summarises.nil (i : ℕ) (outcome : ℕ → Task.Outcome) : Summarises i [] [] outcome :=
  ⟨by simp, by simp⟩

lemma Summarises.cons {o : Task.Outcome} {v : Visit} {visits : List Visit} {rest : List StageCall}
    {outcome : ℕ → Task.Outcome} (h : Summarises (i + 1) visits new outcome) (hran : o.ran = v.ran)
    (hended : o.ended = v.ended) (hkilled : o.killed = rest.contains .kill) :
    Summarises i (v :: visits) (.nextStage i :: rest ++ new) (Function.update outcome i o) := by
  have hlater (j : ℕ) : Function.update outcome i o (i + (j + 1)) = outcome (i + 1 + j) := by
    rw [Function.update_of_ne (by omega), Nat.add_right_comm, Nat.add_assoc]
  have hfirst : Function.update outcome i o (i + 0) = o := Function.update_self i o outcome
  constructor
  · rintro (_ | j) w hw
    · obtain rfl : v = w := by simpa using hw
      rw [hfirst]
      exact ⟨hran, hended⟩
    · rw [hlater]
      exact h.visited j w (by simpa using hw)
  · constructor
    · rintro ⟨_ | j, hj, hk⟩
      · rw [hfirst, hkilled] at hk
        exact List.mem_append_left _ (List.mem_cons_of_mem _ (by simpa using hk))
      · rw [hlater] at hk
        exact List.mem_append_right _ (h.killed.mp ⟨j, by simpa using hj, hk⟩)
    · intro hmem
      rcases List.mem_append.mp hmem with hmem | hmem
      · refine ⟨0, Nat.zero_lt_succ _, ?_⟩
        rw [hfirst, hkilled]
        simpa using hmem
      · obtain ⟨j, hj, hk⟩ := h.killed.mpr hmem
        refine ⟨j + 1, by simpa using hj, ?_⟩
        rw [hlater]
        exact hk

lemma allOf_summary (f : σ → UserCode σ π ρ Bool) (i : ℕ) (stages : List σ) (label : ℕ → String)
    (hs : s.task.iterating = true) (hl : ∀ j (hj : j < stages.length), label (i + j) = TaskStage.label stages[j]) :
    ∃ outcome visits new b s', Returns (allOf f i stages) s b s' ∧ RunsThrough f i stages s visits s' ∧
      Stretch s new s' ∧ Summarises i visits new outcome ∧
      Task.allOf outcome s.task.kill i stages = (b, new.filterMap (StageCall.event label), s'.task.kill) := by
  induction stages generalizing s i with
  | nil =>
    refine ⟨fun _ => ⟨false, false, false⟩, [], [], true, s, by simp [allOf], .stop i [] s, .refl s, .nil _ _, rfl⟩
  | cons next stages ih =>
    obtain ⟨v, rest, s₁, hr, hv, hruns⟩ := passes_visits f i next hs
    let o : Task.Outcome := ⟨v.ran, v.ended, rest.contains .kill⟩
    have hpassed : (o.ran && o.ended && !(s.task.kill || o.killed)) = v.passed := by
      by_cases hk : s.task.kill = true ∨ .kill ∈ rest
      · rw [hv.killed hk]
        rcases hk with hk | hk <;> simp [o, hk]
      · obtain ⟨hflag, hnone⟩ := not_or.mp hk
        have hvk : v.kill = false := Bool.eq_false_of_not_eq_true (fun h => hk (hv.noticed h))
        simp [o, Visit.passed, hvk, hflag, hnone]
    have hkill : s₁.task.kill = (s.task.kill || o.killed) := by
      rw [hv.stretch.kill]
      simp [o]
    have hevents : (StageCall.nextStage i :: rest).filterMap (StageCall.event label) =
        [.nextStage (TaskStage.label next), .cleanup (TaskStage.label next)] ++
          if o.ran then [.end (TaskStage.label next)] else [] := by
      have hlabel : label i = TaskStage.label next := hl 0 (Nat.zero_lt_succ _)
      rw [← events_filter, hv.calls, ← hlabel]
      cases hran : v.ran <;> cases hended : v.ended <;>
        simp [Visit.calls, StageCall.event, hran, hended, o, List.filterMap_cons]
    cases hp : v.passed with
    | false =>
      let outcome : ℕ → Task.Outcome := fun _ => o
      have hsum : Summarises i [v] (.nextStage i :: rest ++ []) (Function.update outcome i o) :=
        (Summarises.nil (i + 1) outcome).cons rfl rfl rfl
      rw [List.append_nil, Function.update_eq_self_iff.mpr rfl] at hsum
      refine ⟨outcome, [v], _, false, s₁, ?_, .visit hruns (.stop _ _ _), hv.stretch, hsum, ?_⟩
      · simp only [allOf, returns_bind]
        exact ⟨false, s₁, hp ▸ hr, by simp⟩
      · rw [hevents, hkill, Task.allOf]
        simp only [outcome, hpassed, hp, Bool.false_eq_true, if_false]
    | true =>
      obtain ⟨outcome, visits, new, b, s', hr', hruns', h', hsum, he⟩ := ih (i := i + 1)
        (hv.stretch.iterating.trans hs) (fun j hj => by
          have hij : i + 1 + j = i + (j + 1) := by omega
          rw [hij]
          exact hl (j + 1) (Nat.succ_lt_succ hj))
      refine ⟨Function.update outcome i o, v :: visits, _, b, s', ?_, .visit hruns hruns', hv.stretch.trans h',
        hsum.cons rfl rfl rfl, ?_⟩
      · simp only [allOf, returns_bind]
        exact ⟨true, s₁, hp ▸ hr, by simpa using hr'⟩
      · have hrest (kill : Bool) : Task.allOf (Function.update outcome i o) kill (i + 1) stages =
            Task.allOf outcome kill (i + 1) stages :=
          Task.allOf_outcome_congr kill (fun j hj => Function.update_of_ne (by omega) _ _)
        rw [hkill] at he
        rw [List.filterMap_append, hevents, Task.allOf, Function.update_self]
        simp only [hpassed, hp, if_true, hrest, he]

/-- A task that is iterated does what the outcomes of its stages say. -/
theorem iterateStages_summary (f : σ → UserCode σ π ρ Bool) (hs : s.task.iterating = false) :
    ∃ outcome visits new ranAll t, Returns (iterateStages f) s ranAll t.stopped ∧
      RunsThrough f 0 s.task.stages s.started visits t ∧ t.stopped.calls = s.calls ++ new ∧
      Summarises 0 visits new outcome ∧
      s.task.iterateStages outcome = (ranAll, new.filterMap (StageCall.event s.task.stageLabel), t.stopped.task) := by
  obtain ⟨outcome, visits, new, b, t, hr, hruns, h, hsum, he⟩ := allOf_summary f 0 s.task.stages s.task.stageLabel
    (rfl : s.started.task.iterating = true) (fun j hj => by simp [Task.stageLabel, hj])
  obtain ⟨hr', h'⟩ := iterateStages_outer hs hr h
  refine ⟨outcome, visits, new, b, t, hr', hruns, h'.calls, hsum, ?_⟩
  have hkill : t.task.kill = t.stopped.task.kill := rfl
  have hallOf : Task.allOf outcome s.task.kill 0 s.task.stages = _ := he
  simp only [Task.iterateStages, hs, Bool.false_eq_true, if_false, hallOf, hkill, h'.task]

theorem iterateStages_summary_sample :
    ∃ outcome visits new ranAll t, Returns (iterateStages Sample.go) (Sample.execution [(), ()] false) ranAll t.stopped ∧
      RunsThrough Sample.go 0 [(), ()] (Sample.execution [(), ()] false).started visits t ∧
      t.stopped.calls = (Sample.execution [(), ()] false).calls ++ new ∧ Summarises 0 visits new outcome ∧
      (Sample.execution [(), ()] false).task.iterateStages outcome =
        (ranAll, new.filterMap (StageCall.event (Sample.execution [(), ()] false).task.stageLabel), t.stopped.task) :=
  iterateStages_summary Sample.go rfl

end Execution

end DagScheduler.Graphs

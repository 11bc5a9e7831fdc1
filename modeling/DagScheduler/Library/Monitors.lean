import DagScheduler.Library.Refinements
import Mathlib.Tactic

/-! Objects that threads share under a mutex, with one condition variable. A call may have to wait
until the object is ready for it; a call that can make the object ready wakes all that wait. -/

namespace DagScheduler.Library.Monitors

open Transitions

structure Monitor (S C R : Type*) where
  start : S
  ready : S → C → Bool
  timed : C → Bool
  /-- What a call returns and does once its wait is over; `none` where that is undefined. -/
  body : S → C → Option (R × S)
  notifies : C → Bool
  signals : ∀ s c r t d, body s c = some (r, t) → ready s d = false → ready t d = true → notifies c = true

/-- Where a thread stands. A thread is `late` once the time limit of its wait has passed. -/
inductive Place (C R : Type*) where
  | outside
  | entering (c : C) (late : Bool)
  /-- The mutex is held from here on. -/
  | testing (c : C) (late : Bool)
  /-- In the wait: the mutex is given back until a wakeup. -/
  | blocked (c : C)
  | notifying (r : R)
  | leaving (r : R)

namespace Place

variable {C R : Type*}

def holds : Place C R → Bool
  | testing _ _ | notifying _ | leaving _ => true
  | _ => false

def pending : Place C R → Option C
  | entering c _ | testing c _ | blocked c => some c
  | _ => none

/-- The result of the call that has taken effect and not returned yet. -/
def result : Place C R → Option R
  | notifying r | leaving r => some r
  | _ => none

def notified : Place C R → Place C R
  | blocked c => entering c false
  | p => p

end Place

/-- The object, its mutex and its threads. `called`, `done` and `returned` only observe: the calls in
the order they were made, took effect and returned. -/
structure Execution (ι S C R : Type*) where
  shared : S
  owner : Option ι
  threads : ι → Place C R
  fault : Bool
  called : List (ι × C)
  done : List (ι × C × R)
  returned : List (ι × R)

inductive Action (ι C : Type*) where
  | call (i : ι) (c : C)
  | proceed (i : ι)
  | expire (i : ι)
  | wake (i : ι)

def Action.internal {ι C : Type*} : Action ι C → Prop
  | proceed _ => True
  | _ => False

variable {ι S C R : Type*} [DecidableEq ι]

namespace Execution

def goto (s : Execution ι S C R) (i : ι) (p : Place C R) : Execution ι S C R :=
  { s with threads := Function.update s.threads i p }

def notifyAll (s : Execution ι S C R) : Execution ι S C R :=
  { s with threads := fun j => (s.threads j).notified }

end Execution

namespace Monitor

variable (M : Monitor S C R)

def goes (x : S) (c : C) (late : Bool) : Bool := M.ready x c || (late && M.timed c)

def proceed (s : Execution ι S C R) (i : ι) : Option (Execution ι S C R) :=
  match s.threads i with
  | .outside | .blocked _ => none
  | .entering c late => if s.owner.isSome then none else some { s.goto i (.testing c late) with owner := some i }
  | .testing c late =>
    if M.goes s.shared c late then
      match M.body s.shared c with
      | none => some { s with fault := true }
      | some (r, x) => some { s.goto i (if M.notifies c then .notifying r else .leaving r) with
        shared := x, done := s.done ++ [(i, c, r)] }
    else some { s.goto i (.blocked c) with owner := none }
  | .notifying r => some (s.notifyAll.goto i (.leaving r))
  | .leaving r => some { s.goto i .outside with owner := none, returned := s.returned ++ [(i, r)] }

def step (s : Execution ι S C R) (a : Action ι C) : Option (Execution ι S C R) :=
  if s.fault then none
  else match a with
  | .call i c =>
    match s.threads i with
    | .outside => some { s.goto i (.entering c false) with called := s.called ++ [(i, c)] }
    | _ => none
  | .proceed i => M.proceed s i
  | .expire i =>
    match s.threads i with
    | .blocked c => if M.timed c then some (s.goto i (.entering c true)) else none
    | _ => none
  | .wake i =>
    match s.threads i with
    | .blocked c => some (s.goto i (.entering c false))
    | _ => none

variable (ι) in
def system : System (Execution ι S C R) (Action ι C) :=
  ⟨⟨M.start, none, fun _ => .outside, false, [], [], []⟩, M.step⟩

variable (ι) in
/-- The object without its mutex: calls take effect at once, and are recorded with their results. -/
def atomic : System (S × List (ι × C × R)) (ι × C) where
  start := (M.start, [])
  step s a :=
    if M.ready s.1 a.2 || M.timed a.2 then
      (M.body s.1 a.2).map fun r => (r.2, s.2 ++ [(a.1, a.2, r.1)])
    else none

/-! What a step can do. -/

inductive Moves (s : Execution ι S C R) : Action ι C → Execution ι S C R → Prop
  | call {i : ι} (c : C) (hi : s.threads i = .outside) :
      Moves s (.call i c) { s.goto i (.entering c false) with called := s.called ++ [(i, c)] }
  | lock {i : ι} {c : C} {late : Bool} (hi : s.threads i = .entering c late) (hfree : s.owner = none) :
      Moves s (.proceed i) { s.goto i (.testing c late) with owner := some i }
  | fail {i : ι} {c : C} {late : Bool} (hi : s.threads i = .testing c late)
      (hgoes : M.goes s.shared c late = true) (hbody : M.body s.shared c = none) :
      Moves s (.proceed i) { s with fault := true }
  | act {i : ι} {c : C} {late : Bool} {r : R} {x : S} (hi : s.threads i = .testing c late)
      (hgoes : M.goes s.shared c late = true) (hbody : M.body s.shared c = some (r, x)) :
      Moves s (.proceed i) { s.goto i (if M.notifies c then .notifying r else .leaving r) with
        shared := x, done := s.done ++ [(i, c, r)] }
  | block {i : ι} {c : C} {late : Bool} (hi : s.threads i = .testing c late)
      (hgoes : M.goes s.shared c late = false) :
      Moves s (.proceed i) { s.goto i (.blocked c) with owner := none }
  | notify {i : ι} {r : R} (hi : s.threads i = .notifying r) :
      Moves s (.proceed i) (s.notifyAll.goto i (.leaving r))
  | leave {i : ι} {r : R} (hi : s.threads i = .leaving r) :
      Moves s (.proceed i) { s.goto i .outside with owner := none, returned := s.returned ++ [(i, r)] }
  | expire {i : ι} {c : C} (hi : s.threads i = .blocked c) (htimed : M.timed c = true) :
      Moves s (.expire i) (s.goto i (.entering c true))
  | wake {i : ι} {c : C} (hi : s.threads i = .blocked c) : Moves s (.wake i) (s.goto i (.entering c false))

variable {M} {s t : Execution ι S C R} {a : Action ι C} {i j : ι} {c : C}

lemma proceed_moves (hs : M.proceed s i = some t) : M.Moves s (.proceed i) t := by
  unfold proceed at hs
  cases hi : s.threads i with
  | outside => simp [hi] at hs
  | blocked c => simp [hi] at hs
  | entering c late =>
    simp only [hi, Option.ite_none_left_eq_some, Option.some.injEq] at hs
    obtain ⟨hfree, rfl⟩ := hs
    exact .lock hi (by simpa using hfree)
  | testing c late =>
    simp only [hi] at hs
    cases hgoes : M.goes s.shared c late with
    | false =>
      obtain rfl : _ = t := by simpa [hgoes] using hs
      exact .block hi hgoes
    | true =>
      cases hbody : M.body s.shared c with
      | none =>
        obtain rfl : _ = t := by simpa [hgoes, hbody] using hs
        exact .fail hi hgoes hbody
      | some r =>
        obtain rfl : _ = t := by simpa [hgoes, hbody] using hs
        exact .act hi hgoes hbody
  | notifying r =>
    simp only [hi, Option.some.injEq] at hs
    exact hs ▸ .notify hi
  | leaving r =>
    simp only [hi, Option.some.injEq] at hs
    exact hs ▸ .leave hi

lemma step_moves (hs : M.step s a = some t) : s.fault = false ∧ M.Moves s a t := by
  unfold step at hs
  cases hf : s.fault with
  | true => simp [hf] at hs
  | false =>
    simp only [hf, Bool.false_eq_true, if_false] at hs
    refine ⟨rfl, ?_⟩
    cases a with
    | call i c =>
      cases hi : s.threads i <;> simp only [hi, reduceCtorEq, Option.some.injEq] at hs
      exact hs ▸ .call c hi
    | proceed i => exact proceed_moves hs
    | expire i =>
      cases hi : s.threads i <;> simp only [hi, reduceCtorEq, Option.ite_none_right_eq_some, Option.some.injEq] at hs
      obtain ⟨htimed, rfl⟩ := hs
      exact .expire hi htimed
    | wake i =>
      cases hi : s.threads i <;> simp only [hi, reduceCtorEq, Option.some.injEq] at hs
      exact hs ▸ .wake hi

/-! What holds of every state that is reached. -/

def ofThread {α : Type*} (i : ι) (l : List (ι × α)) : List α :=
  l.filterMap fun e => if e.1 = i then some e.2 else none

lemma ofThread_append {α : Type*} (l : List (ι × α)) (j : ι) (x : α) :
    ofThread i (l ++ [(j, x)]) = if j = i then ofThread i l ++ [x] else ofThread i l := by
  split_ifs with h <;> simp [ofThread, h]

variable (M) in
structure Sound (s : Execution ι S C R) : Prop where
  mutex : ∀ i, (s.threads i).holds = true ↔ s.owner = some i
  heard : ∀ i c, s.threads i = .blocked c → M.ready s.shared c = true → ∃ j r, s.threads j = .notifying r
  called : ∀ i, ofThread i s.called = (ofThread i s.done).map Prod.fst ++ (s.threads i).pending.toList
  returned : ∀ i, (ofThread i s.done).map Prod.snd = ofThread i s.returned ++ (s.threads i).result.toList

@[simp] lemma threads_goto (p : Place C R) : (s.goto i p).threads j = if j = i then p else s.threads j := by
  simp [Execution.goto, Function.update_apply]

lemma Sound.alone (h : M.Sound s) (hi : (s.threads i).holds = true) (hne : j ≠ i) : (s.threads j).holds = false := by
  rw [Bool.eq_false_iff]
  intro hj
  exact hne (Option.some.inj (((h.mutex j).mp hj).symm.trans ((h.mutex i).mp hi)))

lemma Sound.free (h : M.Sound s) (hfree : s.owner = none) (j : ι) : (s.threads j).holds = false := by
  rw [Bool.eq_false_iff]
  intro hj
  exact Option.some_ne_none j (((h.mutex j).mp hj).symm.trans hfree)

lemma Sound.start : M.Sound (M.system ι).start where
  mutex i := by simp [system, Place.holds]
  heard i c hi := by simp [system] at hi
  called i := by simp [system, ofThread, Place.pending]
  returned i := by simp [system, ofThread, Place.result]

lemma Sound.mutex_keep (h : M.Sound s) {p : Place C R} (hp : p.holds = (s.threads i).holds) (j : ι) :
    ((s.goto i p).threads j).holds = true ↔ s.owner = some j := by
  rw [threads_goto]
  split_ifs with hji
  · rw [hji, hp]
    exact h.mutex i
  · exact h.mutex j

lemma Sound.mutex_drop (h : M.Sound s) {p : Place C R} (hi : (s.threads i).holds = true) (hp : p.holds = false)
    (j : ι) : ((s.goto i p).threads j).holds = true ↔ (none : Option ι) = some j := by
  rw [threads_goto]
  split_ifs with hji
  · simp [hp]
  · simp [h.alone hi hji]

lemma holds_notified (p : Place C R) : p.notified.holds = p.holds := by cases p <;> rfl
lemma pending_notified (p : Place C R) : p.notified.pending = p.pending := by cases p <;> rfl
lemma result_notified (p : Place C R) : p.notified.result = p.result := by cases p <;> rfl

lemma notified_ne_blocked (p : Place C R) : p.notified ≠ .blocked c := by cases p <;> simp [Place.notified]

lemma Sound.mutex_moves (h : M.Sound s) (hm : M.Moves s a t) (j : ι) :
    (t.threads j).holds = true ↔ t.owner = some j := by
  cases hm with
  | call c hi => exact h.mutex_keep (by rw [hi]; rfl) j
  | @lock i c late hi hfree =>
    change ((s.goto i _).threads j).holds = true ↔ some i = some j
    rw [threads_goto]
    split_ifs with hji
    · simp [hji, Place.holds]
    · simp [h.free hfree j, Ne.symm hji]
  | fail => exact h.mutex j
  | act hi => exact h.mutex_keep (by rw [hi]; split_ifs <;> rfl) j
  | block hi => exact h.mutex_drop (by rw [hi]; rfl) rfl j
  | @notify i r hi =>
    change ((s.notifyAll.goto i _).threads j).holds = true ↔ s.owner = some j
    rw [threads_goto, ← h.mutex j]
    split_ifs with hji
    · simp [hji, hi, Place.holds]
    · rw [Execution.notifyAll, holds_notified]
  | leave hi => exact h.mutex_drop (by rw [hi]; rfl) rfl j
  | expire hi => exact h.mutex_keep (by rw [hi]; rfl) j
  | wake hi => exact h.mutex_keep (by rw [hi]; rfl) j

/-- A thread that moves on without having notified leaves whoever was about to notify. -/
lemma Sound.heard_keep (h : M.Sound s) {p : Place C R} (hp : ∀ c, p = .blocked c → M.ready s.shared c = false)
    (hi : ∀ r, s.threads i ≠ .notifying r) (hj : (s.goto i p).threads j = .blocked c)
    (hr : M.ready s.shared c = true) : ∃ k r, (s.goto i p).threads k = .notifying r := by
  rw [threads_goto] at hj
  split_ifs at hj with hji
  · exact absurd hr (by simp [hp c hj])
  · obtain ⟨k, r, hk⟩ := h.heard j c hj hr
    refine ⟨k, r, ?_⟩
    rw [threads_goto, if_neg]
    · exact hk
    · rintro rfl
      exact hi r hk

lemma Sound.heard_moves (h : M.Sound s) (hm : M.Moves s a t) (hj : t.threads j = .blocked c)
    (hr : M.ready t.shared c = true) : ∃ k r, t.threads k = .notifying r := by
  cases hm with
  | call d hi => exact h.heard_keep (by simp) (by simp [hi]) hj hr
  | lock hi => exact h.heard_keep (by simp) (by simp [hi]) hj hr
  | fail => exact h.heard j c hj hr
  | @act i d late r x hi hgoes hbody =>
    cases hn : M.notifies d with
    | true => exact ⟨i, r, by simp [Execution.goto]⟩
    | false =>
      simp only [hn, Bool.false_eq_true, if_false] at hj ⊢
      change (s.goto i _).threads j = _ at hj
      have hold : M.ready s.shared c = true := by
        rw [← Bool.not_eq_false]
        intro hready
        exact Bool.false_ne_true (hn.symm.trans (M.signals _ _ _ _ _ hbody hready hr))
      exact h.heard_keep (by simp) (by simp [hi]) hj hold
  | @block i d late hi hgoes =>
    refine h.heard_keep ?_ (by simp [hi]) hj hr
    rintro c' hc
    obtain rfl := Place.blocked.inj hc
    simp only [goes, Bool.or_eq_false_iff] at hgoes
    exact hgoes.1
  | @notify i r hi =>
    rw [threads_goto] at hj
    split_ifs at hj
    exact absurd hj (notified_ne_blocked _)
  | leave hi => exact h.heard_keep (by simp) (by simp [hi]) hj hr
  | expire hi => exact h.heard_keep (by simp) (by simp [hi]) hj hr
  | wake hi => exact h.heard_keep (by simp) (by simp [hi]) hj hr

lemma called_keep {p : Place C R} (hp : p.pending = (s.threads i).pending) (j : ι) :
    ((s.goto i p).threads j).pending = (s.threads j).pending := by
  rw [threads_goto]
  split_ifs with hji
  · rw [hji, hp]
  · rfl

lemma result_keep {p : Place C R} (hp : p.result = (s.threads i).result) (j : ι) :
    ((s.goto i p).threads j).result = (s.threads j).result := by
  rw [threads_goto]
  split_ifs with hji
  · rw [hji, hp]
  · rfl

lemma Sound.called_moves (h : M.Sound s) (hm : M.Moves s a t) (j : ι) :
    ofThread j t.called = (ofThread j t.done).map Prod.fst ++ (t.threads j).pending.toList := by
  have hkeep {i : ι} {p : Place C R} (hp : p.pending = (s.threads i).pending) :
      ofThread j s.called = (ofThread j s.done).map Prod.fst ++ ((s.goto i p).threads j).pending.toList := by
    rw [called_keep hp]
    exact h.called j
  cases hm with
  | @call i c hi =>
    change ofThread j (s.called ++ [(i, c)]) = (ofThread j s.done).map Prod.fst ++
      ((s.goto i _).threads j).pending.toList
    rw [ofThread_append, threads_goto, h.called j]
    by_cases hji : j = i
    · subst hji
      simp [hi, Place.pending]
    · simp [hji, Ne.symm hji]
  | lock hi => exact hkeep (by rw [hi]; rfl)
  | fail => exact h.called j
  | @act i d late r x hi hgoes hbody =>
    change ofThread j s.called = (ofThread j (s.done ++ [(i, d, r)])).map Prod.fst ++
      ((s.goto i _).threads j).pending.toList
    rw [ofThread_append, threads_goto, h.called j]
    by_cases hji : j = i
    · subst hji
      cases M.notifies d <;> simp [hi, Place.pending]
    · simp [hji, Ne.symm hji]
  | block hi => exact hkeep (by rw [hi]; rfl)
  | @notify i r hi =>
    change ofThread j s.called = (ofThread j s.done).map Prod.fst ++ ((s.notifyAll.goto i _).threads j).pending.toList
    rw [threads_goto, h.called j]
    by_cases hji : j = i
    · simp [hji, hi, Place.pending]
    · simp [hji, Execution.notifyAll, pending_notified]
  | leave hi => exact hkeep (by rw [hi]; rfl)
  | expire hi => exact hkeep (by rw [hi]; rfl)
  | wake hi => exact hkeep (by rw [hi]; rfl)

lemma Sound.returned_moves (h : M.Sound s) (hm : M.Moves s a t) (j : ι) :
    (ofThread j t.done).map Prod.snd = ofThread j t.returned ++ (t.threads j).result.toList := by
  have hkeep {i : ι} {p : Place C R} (hp : p.result = (s.threads i).result) :
      (ofThread j s.done).map Prod.snd = ofThread j s.returned ++ ((s.goto i p).threads j).result.toList := by
    rw [result_keep hp]
    exact h.returned j
  cases hm with
  | call c hi => exact hkeep (by rw [hi]; rfl)
  | lock hi => exact hkeep (by rw [hi]; rfl)
  | fail => exact h.returned j
  | @act i d late r x hi hgoes hbody =>
    change (ofThread j (s.done ++ [(i, d, r)])).map Prod.snd =
      ofThread j s.returned ++ ((s.goto i _).threads j).result.toList
    rw [ofThread_append, threads_goto]
    by_cases hji : j = i
    · subst hji
      have hold := h.returned j
      cases M.notifies d <;> simp_all [Place.result]
    · simp [hji, Ne.symm hji, h.returned j]
  | block hi => exact hkeep (by rw [hi]; rfl)
  | @notify i r hi =>
    change (ofThread j s.done).map Prod.snd = ofThread j s.returned ++
      ((s.notifyAll.goto i _).threads j).result.toList
    rw [threads_goto, h.returned j]
    by_cases hji : j = i
    · simp [hji, hi, Place.result]
    · simp [hji, Execution.notifyAll, result_notified]
  | @leave i r hi =>
    change (ofThread j s.done).map Prod.snd =
      ofThread j (s.returned ++ [(i, r)]) ++ ((s.goto i _).threads j).result.toList
    rw [ofThread_append, threads_goto, h.returned j]
    by_cases hji : j = i
    · subst hji
      simp [hi, Place.result]
    · simp [hji, Ne.symm hji]
  | expire hi => exact hkeep (by rw [hi]; rfl)
  | wake hi => exact hkeep (by rw [hi]; rfl)

lemma Sound.moves (h : M.Sound s) (hm : M.Moves s a t) : M.Sound t :=
  ⟨h.mutex_moves hm, fun _ _ => h.heard_moves hm, h.called_moves hm, h.returned_moves hm⟩

lemma sound (hr : (M.system ι).Reachable s) : M.Sound s :=
  hr.invariant .start fun _ _ _ h hs => h.moves (step_moves hs).2

lemma blocked_not_ready (hr : (M.system ι).Reachable s) (hfree : s.owner = none) (hi : s.threads i = .blocked c) :
    M.ready s.shared c = false := by
  rw [← Bool.not_eq_true]
  intro hready
  obtain ⟨j, r, hj⟩ := (sound hr).heard i c hi hready
  have hholds := (sound hr).free hfree j
  rw [hj] at hholds
  exact Bool.false_ne_true hholds.symm

variable (M ι) in
/-- The calls take effect one after the other, each between its call and its return. -/
def linearization : Refinement (M.system ι) (M.atomic ι) where
  state s := (s.shared, s.done)
  label s a :=
    match a with
    | .proceed i =>
      match s.threads i with
      | .testing c late => if M.goes s.shared c late && (M.body s.shared c).isSome then some (i, c) else none
      | _ => none
    | _ => none
  start := rfl
  stutters s a t _ hs hl := by
    cases (step_moves hs).2 with
    | act hi hgoes hbody => simp [hi, hgoes, hbody] at hl
    | _ => rfl
  steps s a t b _ hs hl := by
    cases (step_moves hs).2 with
    | @act i c late r x hi hgoes hbody =>
      simp only [hi, hgoes, hbody, Option.isSome_some, Bool.and_self, if_true, Option.some.injEq] at hl
      subst hl
      have hgo : (M.ready s.shared c || M.timed c) = true := by
        simp only [goes, Bool.or_eq_true, Bool.and_eq_true] at hgoes ⊢
        exact hgoes.imp id And.right
      change (if (M.ready s.shared c || M.timed c) = true then _ else none) = _
      rw [if_pos hgo, hbody]
      rfl
    | fail hi hgoes hbody => simp [hi, hgoes, hbody] at hl
    | lock hi | block hi | notify hi | leave hi => simp_all
    | _ => simp at hl

lemma Moves.done_grows (hm : M.Moves s a t) : s.done <+: t.done := by
  cases hm with
  | act => exact List.prefix_append _ _
  | _ => exact List.prefix_refl _

/-- What took effect stays: a call that returned comes before one that was made later. -/
lemma done_grows {P : Action ι C → Prop} (hl : (M.system ι).Leads P s t) : s.done <+: t.done := by
  induction hl with
  | refl => exact List.prefix_refl _
  | head _ hs _ ih => exact (step_moves hs).2.done_grows.trans ih

/-! Left alone, the threads come to rest: each call returns or waits for what is not there. -/

variable (M) in
def Settled (s : Execution ι S C R) : Prop :=
  ∀ i, s.threads i = .outside ∨ ∃ c, s.threads i = .blocked c ∧ M.ready s.shared c = false

lemma proceeds (hi : s.threads i ≠ .outside) (hb : ∀ c, s.threads i ≠ .blocked c)
    (hfree : s.owner = none ∨ (s.threads i).holds = true) : ∃ t, M.proceed s i = some t := by
  unfold proceed
  cases hp : s.threads i with
  | outside => exact absurd hp hi
  | blocked c => exact absurd hp (hb c)
  | entering c late =>
    have hnone : s.owner = none := hfree.resolve_right (by simp [hp, Place.holds])
    exact ⟨_, if_neg (by simp [hnone])⟩
  | testing c late =>
    cases hgoes : M.goes s.shared c late <;> cases hbody : M.body s.shared c <;> simp [hgoes, hbody]
  | notifying r => exact ⟨_, rfl⟩
  | leaving r => exact ⟨_, rfl⟩

lemma settled_or_proceeds (hr : (M.system ι).Reachable s) : M.Settled s ∨ ∃ i t, M.proceed s i = some t := by
  cases ho : s.owner with
  | some i =>
    have hholds := ((sound hr).mutex i).mpr ho
    obtain ⟨t, ht⟩ := proceeds (fun h => by simp [h, Place.holds] at hholds)
      (fun c h => by simp [h, Place.holds] at hholds) (.inr hholds)
    exact .inr ⟨i, t, ht⟩
  | none =>
    by_cases hrest : ∀ i, s.threads i = .outside ∨ ∃ c, s.threads i = .blocked c
    · refine .inl fun i => (hrest i).imp id ?_
      rintro ⟨c, hc⟩
      exact ⟨c, hc, blocked_not_ready hr ho hc⟩
    · push Not at hrest
      obtain ⟨i, hi, hb⟩ := hrest
      obtain ⟨t, ht⟩ := proceeds hi hb (.inl ho)
      exact .inr ⟨i, t, ht⟩

end Monitor

namespace Place

variable {C R : Type*}

def debt : Place C R → ℕ
  | outside | leaving _ => 0
  | _ => 1

def distance : Place C R → ℕ
  | outside | blocked _ => 0
  | leaving _ => 1
  | notifying _ => 2
  | testing _ _ => 3
  | entering _ _ => 4

end Place

namespace Monitor

variable {M : Monitor S C R} {s t : Execution ι S C R} {i : ι} [Fintype ι]

def weight (s : Execution ι S C R) : Lex (ℕ × ℕ) :=
  toLex (∑ i, (s.threads i).debt, ∑ i, (s.threads i).distance)

lemma sum_goto (f : Place C R → ℕ) (p : Place C R) :
    ∑ j, f ((s.goto i p).threads j) + f (s.threads i) = ∑ j, f (s.threads j) + f p :=
  sum_update f s.threads i p

lemma weight_goto {p : Place C R} (hdebt : p.debt ≤ (s.threads i).debt)
    (hdist : p.distance < (s.threads i).distance) : weight (s.goto i p) < weight s := by
  have hd := sum_goto (s := s) (i := i) Place.debt p
  have hr := sum_goto (s := s) (i := i) Place.distance p
  rw [weight, weight, Prod.Lex.toLex_lt_toLex]
  rcases Nat.lt_or_ge p.debt (s.threads i).debt with hlt | hge
  · left
    omega
  · right
    constructor <;> omega

lemma weight_moves (hm : M.Moves s (.proceed i) t) (hf : t.fault = false) : weight t < weight s := by
  cases hm with
  | lock hi => exact weight_goto (by simp [hi, Place.debt]) (by simp [hi, Place.distance])
  | fail => exact absurd hf (by simp)
  | @act i c late r x hi hgoes hbody =>
    refine weight_goto ?_ ?_
    · rw [hi]
      split_ifs <;> simp [Place.debt]
    · rw [hi]
      split_ifs <;> simp [Place.distance]
  | block hi => exact weight_goto (by simp [hi, Place.debt]) (by simp [hi, Place.distance])
  | @notify i r hi =>
    have hd := sum_goto (s := s.notifyAll) (i := i) Place.debt (.leaving r)
    have hsame : ∑ j, (s.notifyAll.threads j).debt = ∑ j, (s.threads j).debt := by
      apply Finset.sum_congr rfl
      intro j _
      cases hj : s.threads j <;> simp [Execution.notifyAll, hj, Place.notified, Place.debt]
    have hself : (s.notifyAll.threads i).debt = 1 := by simp [Execution.notifyAll, hi, Place.notified, Place.debt]
    rw [weight, weight, Prod.Lex.toLex_lt_toLex]
    left
    simp only [Place.debt] at hd hself hsame ⊢
    omega
  | leave hi => exact weight_goto (by simp [hi, Place.debt]) (by simp [hi, Place.distance])

variable (M) in
def Follows (t s : Execution ι S C R) : Prop := ∃ i, M.step s (.proceed i) = some t

lemma follows_acc (s : Execution ι S C R) : Acc M.Follows s := by
  induction hw : weight s using WellFoundedLT.induction generalizing s with
  | ind w ih =>
    refine ⟨s, fun t ⟨i, hs⟩ => ?_⟩
    cases hf : t.fault with
    | true =>
      refine ⟨t, fun u ⟨j, hu⟩ => ?_⟩
      exact absurd ((step_moves hu).1.symm.trans hf) Bool.false_ne_true
    | false => exact ih (weight t) (hw ▸ weight_moves (step_moves hs).2 hf) t rfl

end Monitor

end DagScheduler.Library.Monitors

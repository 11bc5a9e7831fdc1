import Mathlib.Logic.Relation
import Mathlib.Algebra.BigOperators.Fin
import Mathlib.Data.List.Basic

/-! Systems that take labelled steps, their runs, and amounts spread over the components of a state. -/

namespace DagScheduler.Library.Transitions

variable {S A : Type*}

/-- A label that is not enabled in a state has no step there. -/
structure System (S A : Type*) where
  start : S
  step : S → A → Option S

namespace System

/-- The steps so far, each with the state it was taken in, and the state reached. -/
inductive Run (M : System S A) : List (S × A) → S → Prop
  | start : M.Run [] M.start
  | step {h : List (S × A)} {s t : S} {a : A} (run : M.Run h s) (hs : M.step s a = some t) :
      M.Run (h ++ [(s, a)]) t

def Reachable (M : System S A) (s : S) : Prop := ∃ h, M.Run h s

/-- `t` comes after `s` by steps with labels that satisfy `P`. -/
inductive Leads (M : System S A) (P : A → Prop) : S → S → Prop
  | refl (s : S) : M.Leads P s s
  | head {s t u : S} {a : A} (ha : P a) (hs : M.step s a = some t) (rest : M.Leads P t u) :
      M.Leads P s u

variable {M : System S A} {P Q : A → Prop} {I : S → Prop} {h : List (S × A)} {s t u : S} {a : A}

lemma Reachable.start : M.Reachable M.start := ⟨[], .start⟩

lemma Reachable.step (hr : M.Reachable s) (hs : M.step s a = some t) : M.Reachable t := by
  obtain ⟨h, run⟩ := hr
  exact ⟨_, run.step hs⟩

lemma Run.invariant (hstart : I M.start) (hstep : ∀ s a t, I s → M.step s a = some t → I t)
    (run : M.Run h s) : I s := by
  induction run with
  | start => exact hstart
  | step _ hs ih => exact hstep _ _ _ ih hs

lemma Reachable.invariant (hstart : I M.start) (hstep : ∀ s a t, I s → M.step s a = some t → I t)
    (hr : M.Reachable s) : I s := by
  obtain ⟨h, run⟩ := hr
  exact run.invariant hstart hstep

lemma Reachable.induct (hstart : I M.start)
    (hstep : ∀ s a t, M.Reachable s → I s → M.step s a = some t → I t) (hr : M.Reachable s) : I s := by
  have hboth : M.Reachable s ∧ I s := by
    apply hr.invariant
    · exact ⟨.start, hstart⟩
    · intro s a t ih hs
      exact ⟨ih.1.step hs, hstep s a t ih.1 ih.2 hs⟩
  exact hboth.2

lemma Run.invariant_of {C : S → A → Prop} (hstart : I M.start)
    (hstep : ∀ s a t, M.Reachable s → C s a → I s → M.step s a = some t → I t) (run : M.Run h s)
    (hc : ∀ e ∈ h, C e.1 e.2) : I s := by
  induction run with
  | start => exact hstart
  | step run hs ih =>
    apply hstep _ _ _ ⟨_, run⟩ _ _ hs
    · exact hc (_, _) (by simp)
    · exact ih (fun e he => hc e (List.mem_append_left _ he))

lemma Leads.trans (hst : M.Leads P s t) (htu : M.Leads P t u) : M.Leads P s u := by
  induction hst with
  | refl => exact htu
  | head ha hs _ ih => exact .head ha hs (ih htu)

lemma Leads.mono (hPQ : ∀ a, P a → Q a) (hst : M.Leads P s t) : M.Leads Q s t := by
  induction hst with
  | refl => exact .refl _
  | head ha hs _ ih => exact .head (hPQ _ ha) hs ih

lemma Leads.reachable (hst : M.Leads P s t) (hr : M.Reachable s) : M.Reachable t := by
  induction hst with
  | refl => exact hr
  | head _ hs _ ih => exact ih (hr.step hs)

lemma Leads.invariant (hstep : ∀ s a t, M.Reachable s → P a → I s → M.step s a = some t → I t)
    (hst : M.Leads P s t) (hr : M.Reachable s) (hI : I s) : I t := by
  induction hst with
  | refl => exact hI
  | head ha hs _ ih => exact ih (hr.step hs) (hstep _ _ _ hr ha hI hs)

lemma Run.split {e : S × A} (run : M.Run h s) (he : e ∈ h) :
    ∃ h₁ h₂, h = h₁ ++ e :: h₂ ∧ M.Run h₁ e.1 := by
  induction run with
  | start => simp at he
  | @step h u v a run hs ih =>
    rcases List.mem_append.mp he with he | he
    · obtain ⟨h₁, h₂, rfl, hrun⟩ := ih he
      exact ⟨h₁, h₂ ++ [(u, a)], by simp, hrun⟩
    · obtain rfl := List.mem_singleton.mp he
      exact ⟨h, [], rfl, run⟩

lemma Run.taken {e : S × A} (run : M.Run h s) (he : e ∈ h) : ∃ u, M.step e.1 e.2 = some u := by
  induction run with
  | start => simp at he
  | @step h u v a run hs ih =>
    rcases List.mem_append.mp he with he | he
    · exact ih he
    · obtain rfl := List.mem_singleton.mp he
      exact ⟨v, hs⟩

def since (M : System S A) (s : S) : System S A := { M with start := s }

lemma Run.append {h' : List (S × A)} (run : M.Run h s) (later : (M.since s).Run h' t) :
    M.Run (h ++ h') t := by
  induction later with
  | start => simpa [since] using run
  | @step h' u v a _ hs ih =>
    rw [← List.append_assoc]
    exact ih.step hs

lemma Reachable.since (hr : M.Reachable s) (later : (M.since s).Reachable t) : M.Reachable t := by
  obtain ⟨h, run⟩ := hr
  obtain ⟨h', run'⟩ := later
  exact ⟨h ++ h', run.append run'⟩

lemma Leads.run (hst : M.Leads P s t) : ∃ h, (M.since s).Run h t ∧ ∀ e ∈ h, P e.2 := by
  induction hst with
  | refl s => exact ⟨[], .start, by simp⟩
  | @head s t u a ha hs _ ih =>
    obtain ⟨h, run, hp⟩ := ih
    have first : (M.since s).Run ([] ++ [(s, a)]) t := .step .start hs
    refine ⟨[(s, a)] ++ h, first.append run, ?_⟩
    intro e he
    rcases List.mem_append.mp he with he | he
    · exact List.mem_singleton.mp he ▸ ha
    · exact hp e he

def exec (M : System S A) (s : S) : List A → Option S
  | [] => some s
  | a :: as => (M.step s a).bind fun t => M.exec t as

lemma exec_leads {as : List A} (ha : ∀ a ∈ as, P a) (he : M.exec s as = some t) : M.Leads P s t := by
  induction as generalizing s with
  | nil =>
    obtain rfl := Option.some.inj he
    exact .refl _
  | cons a as ih =>
    obtain ⟨u, hu, hut⟩ := Option.bind_eq_some_iff.mp he
    exact .head (ha a List.mem_cons_self) hu (ih (fun b hb => ha b (List.mem_cons_of_mem _ hb)) hut)

lemma exec_reachable {as : List A} (he : M.exec M.start as = some t) : M.Reachable t :=
  (exec_leads (P := fun _ => True) (fun _ _ => trivial) he).reachable .start

def trace (M : System S A) (s : S) : List A → List (S × A)
  | [] => []
  | a :: as => (s, a) :: ((M.step s a).map fun t => M.trace t as).getD []

lemma trace_mem {as : List A} {e : S × A} (he : e ∈ M.trace s as) : e.2 ∈ as := by
  induction as generalizing s with
  | nil => simp [trace] at he
  | cons a as ih =>
    rcases List.mem_cons.mp he with rfl | he
    · exact List.mem_cons_self
    · cases hs : M.step s a with
      | none => simp [hs] at he
      | some t =>
        simp only [hs, Option.map_some, Option.getD_some] at he
        exact List.mem_cons_of_mem _ (ih he)

lemma exec_trace {as : List A} (he : M.exec s as = some t) : (M.since s).Run (M.trace s as) t := by
  induction as generalizing s with
  | nil =>
    obtain rfl := Option.some.inj he
    exact .start
  | cons a as ih =>
    obtain ⟨u, hu, hut⟩ := Option.bind_eq_some_iff.mp he
    have first : (M.since s).Run ([] ++ [(s, a)]) u := .step .start hu
    simpa [trace, hu] using first.append (ih hut)

/-- Where the steps of a kind lower a rank and no other step raises it, a run has few of them. -/
lemma exec_countP {as : List A} {p : A → Bool} (rank : S → ℕ)
    (hstep : ∀ s a t, P a → I s → M.step s a = some t → I t ∧ rank t + (if p a then 1 else 0) ≤ rank s)
    (ha : ∀ a ∈ as, P a) (hI : I s) (he : M.exec s as = some t) : as.countP p + rank t ≤ rank s := by
  induction as generalizing s with
  | nil =>
    obtain rfl := Option.some.inj he
    simp
  | cons a as ih =>
    obtain ⟨u, hu, hut⟩ := Option.bind_eq_some_iff.mp he
    have hrest : ∀ b ∈ as, P b := fun b hb => ha b (List.mem_cons_of_mem _ hb)
    obtain ⟨hIu, hrank⟩ := hstep s a u (ha a List.mem_cons_self) hI hu
    have hcount := ih hrest hIu hut
    rw [List.countP_cons]
    omega

lemma exists_stuck (rank : S → ℕ) (hstep : ∀ s a t, P a → I s → M.step s a = some t → I t ∧ rank t < rank s)
    (hI : I s) : ∃ t, M.Leads P s t ∧ ∀ a, P a → M.step t a = none := by
  induction hn : rank s using Nat.strong_induction_on generalizing s with
  | _ n ih =>
    by_cases hstuck : ∀ a, P a → M.step s a = none
    · exact ⟨s, .refl s, hstuck⟩
    · push Not at hstuck
      obtain ⟨a, ha, hne⟩ := hstuck
      obtain ⟨u, hu⟩ := Option.ne_none_iff_exists'.mp hne
      obtain ⟨hIu, hlt⟩ := hstep s a u ha hI hu
      obtain ⟨t, hleads, ht⟩ := ih (rank u) (hn ▸ hlt) hIu rfl
      exact ⟨t, .head ha hu hleads, ht⟩

lemma exec_any {as : List A} {p : S → Bool} (h : (M.exec s as).any p = true) :
    ∃ t, M.exec s as = some t ∧ p t = true := by
  cases he : M.exec s as with
  | none => simp [he] at h
  | some t => exact ⟨t, rfl, by simpa [he] using h⟩

end System

/-! What one component gains or loses, the whole gains or loses. -/

section Totals

variable {α ι : Type*} (f : α → ℕ)

lemma sum_map_set {l : List α} {i : ℕ} {x y : α} (hi : l[i]? = some y) :
    ((l.set i x).map f).sum + f y = (l.map f).sum + f x := by
  induction l generalizing i with
  | nil => simp at hi
  | cons z l ih =>
    cases i with
    | zero =>
      obtain rfl : z = y := by simpa using hi
      simp only [List.set_cons_zero, List.map_cons, List.sum_cons]
      omega
    | succ i =>
      have hrest := ih (i := i) (by simpa using hi)
      simp only [List.set_cons_succ, List.map_cons, List.sum_cons]
      omega

lemma sum_update [Fintype ι] [DecidableEq ι] (p : ι → α) (k : ι) (x : α) :
    ∑ j, f (Function.update p k x j) + f (p k) = ∑ j, f (p j) + f x := by
  have hrest : ∑ j ∈ Finset.univ.erase k, f (Function.update p k x j) =
      ∑ j ∈ Finset.univ.erase k, f (p j) := by
    apply Finset.sum_congr rfl
    intro j hj
    rw [Function.update_of_ne (Finset.ne_of_mem_erase hj)]
  have hold := Finset.sum_erase_add Finset.univ (fun j => f (p j)) (Finset.mem_univ k)
  have hnew := Finset.sum_erase_add Finset.univ (fun j => f (Function.update p k x j)) (Finset.mem_univ k)
  simp only [Function.update_self] at hnew
  omega

end Totals

end DagScheduler.Library.Transitions

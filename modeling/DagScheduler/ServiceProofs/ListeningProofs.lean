import DagScheduler.Service.HttpsSession

/-! When the service stops listening: the accept that a session owes is lost with the session. -/

namespace DagScheduler.Service

open Library.Transitions

variable {s t : WorkflowService} {a : ℕ × Completion} {op : Operation} {c : Completion} {k : ℕ}

/-- An accept on a closed acceptor brings nothing any more. -/
def Operation.live : Operation → Bool
  | .accept closed => !closed
  | _ => true

def Completion.drops : Completion → Bool
  | .onAccept ec keepAlive => ec ≠ .success || keepAlive ≠ .success
  | .onRead ec _ _ => ec = .other
  | .onWrite ec => ec ≠ .success
  | _ => false

namespace WorkflowService

/-- Some operation is pending that leads to a connection, or back to an accept. -/
def Hears (s : WorkflowService) : Prop := ∃ op ∈ s.pending, op.live = true

instance (s : WorkflowService) : Decidable s.Hears :=
  inferInstanceAs (Decidable (∃ op ∈ s.pending, op.live = true))

def Covered (s : WorkflowService) (a : ℕ × Completion) : Prop :=
  a.2.drops = true → ∃ op ∈ s.pending.eraseIdx a.1, op.live = true

lemma hears_async (h : op.live = true) : (s.async op).Hears := ⟨op, by simp [async], h⟩

lemma hears_sends {i : ℕ} {sent : List Bool} (h : s.Hears ∨ sent ≠ []) :
    (sent.foldl (fun s eof => HTTPSSession.send s i eof) s).Hears := by
  induction sent generalizing s with
  | nil => simpa using h
  | cons eof sent ih => exact ih (.inl (hears_async rfl))

lemma complete_cases (hs : s.complete op c = some t) :
    (c.drops = true ∧ t.pending = s.pending) ∨ (c.drops = false ∧ op.live = true ∧ t.Hears) := by
  cases op with
  | accept closed =>
    cases c with
    | onAccept ec keepAlive =>
      cases closed <;> cases ec <;> cases keepAlive <;> simp [complete] at hs <;> subst hs
      all_goals first
        | exact .inl ⟨rfl, rfl⟩
        | exact .inr ⟨rfl, rfl, hears_async rfl⟩
    | _ => simp [complete] at hs
  | dispatch i =>
    cases c with
    | onRun =>
      obtain rfl := Option.some.inj hs
      exact .inr ⟨rfl, rfl, hears_async rfl⟩
    | _ => simp [complete] at hs
  | handshake i =>
    cases c with
    | onHandshake ec =>
      obtain rfl := Option.some.inj hs
      refine .inr ⟨rfl, rfl, ?_⟩
      cases ec <;> exact hears_async rfl
    | _ => simp [complete] at hs
  | read i =>
    cases c with
    | onRead ec handling needEof =>
      simp only [complete, Option.ite_none_right_eq_some, Option.some.injEq] at hs
      obtain ⟨hproper, rfl⟩ := hs
      cases ec with
      | endOfStream => exact .inr ⟨rfl, rfl, hears_async rfl⟩
      | other => exact .inl ⟨rfl, rfl⟩
      | success =>
        refine .inr ⟨rfl, rfl, ?_⟩
        cases handling with
        | notFound => exact hears_async rfl
        | handled sent status =>
          cases status with
          | false => exact hears_async rfl
          | true =>
            apply hears_sends
            right
            rintro rfl
            exact absurd hproper (by decide)
    | _ => simp [complete] at hs
  | write i close =>
    cases c with
    | onWrite ec =>
      obtain rfl := Option.some.inj hs
      cases ec with
      | success =>
        refine .inr ⟨rfl, rfl, ?_⟩
        cases close <;> exact hears_async rfl
      | _ => exact .inl ⟨rfl, rfl⟩
    | _ => simp [complete] at hs
  | shutdown i =>
    cases c with
    | onShutdown ec =>
      obtain rfl := Option.some.inj hs
      exact .inr ⟨rfl, rfl, hears_async rfl⟩
    | _ => simp [complete] at hs

lemma step_cases (hs : s.step a = some t) : ∃ op, s.pending[a.1]? = some op ∧
    ((a.2.drops = true ∧ t.pending = s.pending.eraseIdx a.1) ∨
      (a.2.drops = false ∧ op.live = true ∧ t.Hears)) := by
  obtain ⟨op, hop, hc⟩ := Option.bind_eq_some_iff.mp hs
  exact ⟨op, hop, complete_cases hc⟩

lemma hears_iff_covered (hs : s.step a = some t) : t.Hears ↔ s.Covered a := by
  obtain ⟨op, -, ⟨hd, hpending⟩ | ⟨hd, -, ht⟩⟩ := step_cases hs
  · rw [Hears, hpending, Covered, hd]
    simp
  · refine iff_of_true ht fun h => ?_
    exact absurd (hd.symm.trans h) Bool.false_ne_true

lemma Covered.hears (hc : s.Covered a) (hs : s.step a = some t) : s.Hears := by
  obtain ⟨op, hop, ⟨hd, -⟩ | ⟨-, hlive, -⟩⟩ := step_cases hs
  · obtain ⟨op', hmem, hlive⟩ := hc hd
    exact ⟨op', List.mem_of_mem_eraseIdx hmem, hlive⟩
  · exact ⟨op, List.mem_of_getElem? hop, hlive⟩

lemma hears_run {h : List (WorkflowService × (ℕ × Completion))} (run : system.Run h t) :
    t.Hears ↔ ∀ e ∈ h, e.1.Covered e.2 := by
  induction run with
  | start => exact iff_of_true (hears_async rfl) (by simp)
  | @step h s t a run hs ih =>
    rw [hears_iff_covered hs, List.forall_mem_append, List.forall_mem_singleton, ← ih]
    exact ⟨fun hc => ⟨hc.hears hs, hc⟩, fun hc => hc.2⟩

/-! The way back to an accept. -/

def Operation.distance : Operation → ℕ
  | .accept _ => 0
  | .shutdown _ => 1
  | .read _ | .handshake _ => 2
  | .write _ _ | .dispatch _ => 3

def Operation.back : Operation → Completion
  | .accept _ => .onAccept .other .success
  | .dispatch _ => .onRun
  | .handshake _ => .onHandshake .other
  | .read _ => .onRead .endOfStream .notFound false
  | .write _ _ => .onWrite .success
  | .shutdown _ => .onShutdown .success

lemma complete_back (hlive : op.live = true) (hop : op ≠ .accept false) :
    ∃ t, s.complete op (Operation.back op) = some t ∧ ∃ op' ∈ t.pending, op'.live = true ∧
      Operation.distance op' < Operation.distance op := by
  cases op with
  | accept closed =>
    cases closed with
    | false => exact absurd rfl hop
    | true => exact absurd hlive Bool.false_ne_true
  | dispatch i => exact ⟨_, rfl, .handshake i, by simp [HTTPSSession.onRun, async], rfl, by simp [Operation.distance]⟩
  | handshake i =>
    exact ⟨_, rfl, .shutdown i, by simp [HTTPSSession.onHandshake, HTTPSSession.doClose, async], rfl, by simp [Operation.distance]⟩
  | read i =>
    exact ⟨_, rfl, .shutdown i, by simp [HTTPSSession.onRead, HTTPSSession.doClose, async], rfl, by simp [Operation.distance]⟩
  | write i close =>
    cases close with
    | true =>
      exact ⟨_, rfl, .shutdown i, by simp [HTTPSSession.onWrite, HTTPSSession.doClose, async], rfl, by simp [Operation.distance]⟩
    | false =>
      exact ⟨_, rfl, .read i, by simp [HTTPSSession.onWrite, HTTPSSession.doRead, async], rfl, by simp [Operation.distance]⟩
  | shutdown i =>
    refine ⟨_, rfl, .accept false, ?_, rfl, by simp [Operation.distance]⟩
    simp [HTTPSSession.onShutdown, HTTPSListener.reset, HTTPSListener.run, HTTPSListener.doAccept, async]

lemma leads_back (n : ℕ) (hmem : op ∈ s.pending) (hlive : op.live = true) (hn : Operation.distance op ≤ n) :
    ∃ t, system.Leads (fun _ => True) s t ∧ .accept false ∈ t.pending := by
  induction n generalizing s op with
  | zero =>
    cases op with
    | accept closed =>
      cases closed with
      | false => exact ⟨s, .refl s, hmem⟩
      | true => exact absurd hlive Bool.false_ne_true
    | _ => exact absurd hn (by simp [Operation.distance])
  | succ n ih =>
    by_cases hop : op = .accept false
    · exact ⟨s, .refl s, hop ▸ hmem⟩
    · obtain ⟨k, hk⟩ := List.getElem?_of_mem hmem
      obtain ⟨t, ht, op', hmem', hlive', hlt⟩ :=
        complete_back (s := { s with pending := s.pending.eraseIdx k }) hlive hop
      have hs : system.step s (k, Operation.back op) = some t := Option.bind_eq_some_iff.mpr ⟨op, hk, ht⟩
      obtain ⟨u, hu, haccept⟩ := ih hmem' hlive' (by omega)
      exact ⟨u, .head trivial hs hu, haccept⟩

/-- A connection or an accept is pending as long as each completion that starts nothing leaves
another one behind. -/
theorem hears_iff {h : List (WorkflowService × (ℕ × Completion))} (run : system.Run h t) :
    (t.Hears ↔ ∀ e ∈ h, e.1.Covered e.2) ∧
      (t.Hears → t.pending ≠ [] ∧ ∃ u, system.Leads (fun _ => True) t u ∧ .accept false ∈ u.pending) := by
  refine ⟨hears_run run, ?_⟩
  rintro ⟨op, hmem, hlive⟩
  exact ⟨List.ne_nil_of_mem hmem, leads_back _ hmem hlive (le_refl _)⟩

theorem hears_iff_sample :
    ∃ h t, system.Run h t ∧ h.length = 2 ∧ (t.Hears ↔ ∀ e ∈ h, e.1.Covered e.2) ∧
      (t.Hears → t.pending ≠ [] ∧ ∃ u, system.Leads (fun _ => True) t u ∧ .accept false ∈ u.pending) := by
  have hexec : system.exec system.start [(0, .onAccept .success .success), (0, .onRun)] =
      some ⟨[.handshake 0], 1⟩ := rfl
  exact ⟨_, _, System.exec_trace hexec, rfl, hears_iff (System.exec_trace hexec)⟩

/-- A connection that is reset while its request is read. -/
theorem hears_fails :
    ∃ t, system.exec system.start [(0, .onAccept .success .success), (0, .onRun), (0, .onHandshake .success),
      (0, .onRead .other .notFound false)] = some t ∧ t.pending = [] :=
  ⟨_, rfl, rfl⟩

end WorkflowService

end DagScheduler.Service

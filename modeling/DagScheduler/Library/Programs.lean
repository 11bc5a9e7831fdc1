import Mathlib.Control.Monad.Basic
import Mathlib.Tactic

/-! Programs over a state that either return or stop with a fault: what it means for a run to
return, and the rules that take a returned run apart and put it together. -/

namespace DagScheduler.Library.Programs

variable {σ ε α β : Type}

abbrev Program (σ ε α : Type) := StateT σ (Except ε) α

def Returns (p : Program σ ε α) (s : σ) (a : α) (t : σ) : Prop :=
  p.run s = .ok (a, t)

lemma Returns.unique {p : Program σ ε α} {s t t' : σ} {a a' : α}
    (h : Returns p s a t) (h' : Returns p s a' t') : a = a' ∧ t = t' := by
  have he := h.symm.trans h'
  simpa using he

lemma Returns.iff {p : Program σ ε α} {s t u : σ} {a b : α} (h : Returns p s a t) :
    Returns p s b u ↔ b = a ∧ u = t := by
  constructor
  · exact fun h' => h'.unique h
  · rintro ⟨rfl, rfl⟩
    exact h

@[simp] lemma returns_pure {s t : σ} {a b : α} :
    Returns (pure a : Program σ ε α) s b t ↔ b = a ∧ t = s := by
  change (Except.ok (a, s) : Except ε (α × σ)) = .ok (b, t) ↔ _
  simp only [Except.ok.injEq, Prod.mk.injEq]
  tauto

@[simp] lemma returns_bind {p : Program σ ε α} {f : α → Program σ ε β} {s t : σ} {b : β} :
    Returns (p >>= f) s b t ↔ ∃ a u, Returns p s a u ∧ Returns (f a) u b t := by
  simp only [Returns, StateT.run_bind]
  cases hp : p.run s with
  | error e => simp [bind, Except.bind]
  | ok r =>
    obtain ⟨a, u⟩ := r
    simp [bind, Except.bind]

@[simp] lemma returns_map {p : Program σ ε α} {f : α → β} {s t : σ} {b : β} :
    Returns (f <$> p) s b t ↔ ∃ a, Returns p s a t ∧ b = f a := by
  rw [map_eq_pure_bind, returns_bind]
  constructor
  · rintro ⟨a, u, hp, hf⟩
    obtain ⟨rfl, rfl⟩ := returns_pure.mp hf
    exact ⟨a, hp, rfl⟩
  · rintro ⟨a, hp, rfl⟩
    exact ⟨a, t, hp, returns_pure.mpr ⟨rfl, rfl⟩⟩

@[simp] lemma returns_get {s a t : σ} :
    Returns (get : Program σ ε σ) s a t ↔ a = s ∧ t = s := by
  change (Except.ok (s, s) : Except ε (σ × σ)) = .ok (a, t) ↔ _
  simp only [Except.ok.injEq, Prod.mk.injEq]
  tauto

@[simp] lemma returns_set {s s' t : σ} {a : Unit} :
    Returns (set s' : Program σ ε Unit) s a t ↔ t = s' := by
  change (Except.ok ((), s') : Except ε (Unit × σ)) = .ok (a, t) ↔ _
  simp only [Except.ok.injEq, Prod.mk.injEq, true_and]
  tauto

@[simp] lemma returns_modify {f : σ → σ} {s t : σ} {a : Unit} :
    Returns (modify f : Program σ ε Unit) s a t ↔ t = f s := by
  change (Except.ok ((), f s) : Except ε (Unit × σ)) = .ok (a, t) ↔ _
  simp only [Except.ok.injEq, Prod.mk.injEq, true_and]
  tauto

@[simp] lemma returns_throw {e : ε} {s t : σ} {a : α} :
    ¬ Returns (throw e : Program σ ε α) s a t := by
  simp [Returns, throw, throwThe, MonadExceptOf.throw, StateT.run, StateT.lift, bind, Except.bind]

lemma exists_returns {p : Program σ ε α} {s : σ} {q : α × σ → Bool} (h : (p.run s).toOption.any q = true) :
    ∃ a t, Returns p s a t ∧ q (a, t) = true := by
  cases hrun : p.run s with
  | error e => simp [hrun, Except.toOption] at h
  | ok r => exact ⟨r.1, r.2, hrun, by simpa [hrun, Except.toOption] using h⟩

lemma exists_returns_eq [BEq α] [LawfulBEq α] {p : Program σ ε α} {s : σ} {a : α}
    (h : (p.run s).toOption.any (fun r => r.1 == a) = true) : ∃ t, Returns p s a t := by
  obtain ⟨b, t, hr, hb⟩ := exists_returns h
  exact ⟨t, eq_of_beq hb ▸ hr⟩

/-- Without faults to stop with, a program returns. -/
lemma returns_total (p : Program σ Empty α) (s : σ) : ∃ a t, Returns p s a t := by
  cases hrun : p.run s with
  | error e => exact e.elim
  | ok r => exact ⟨r.1, r.2, hrun⟩

def outcome (p : Program σ ε α) (s : σ) : Option (α × σ) := (p.run s).toOption

lemma Returns.outcome {p : Program σ ε α} {s t : σ} {a : α} (h : Returns p s a t) : outcome p s = some (a, t) := by
  rw [Programs.outcome, h]
  rfl

lemma Returns.of_outcome {p : Program σ ε α} {s t : σ} {a : α} (h : Programs.outcome p s = some (a, t)) : Returns p s a t := by
  unfold Programs.outcome at h
  cases hrun : p.run s with
  | error e => simp [hrun, Except.toOption] at h
  | ok r =>
    rw [hrun] at h
    exact hrun.trans (congrArg Except.ok (Option.some.inj h))

lemma outcome_eq_none {p : Program σ ε α} {s : σ} (h : ∀ a t, ¬ Returns p s a t) : outcome p s = none := by
  cases hrun : p.run s with
  | error e => simp [outcome, hrun, Except.toOption]
  | ok r => exact absurd hrun (h r.1 r.2)

lemma outcome_bind (p : Program σ ε α) (f : α → Program σ ε β) (s : σ) :
    outcome (p >>= f) s = (outcome p s).bind fun r => outcome (f r.1) r.2 := by
  simp only [outcome, StateT.run_bind]
  cases p.run s <;> rfl

def ofResult (r : Except ε α) : Program σ ε α := StateT.lift r

@[simp] lemma returns_ofResult {r : Except ε α} {s t : σ} {a : α} :
    Returns (ofResult r) s a t ↔ r = .ok a ∧ t = s := by
  cases r with
  | error e => simp [Returns, ofResult, StateT.lift, StateT.run, bind, Except.bind]
  | ok b =>
    change (Except.ok (b, s) : Except ε (α × σ)) = .ok (a, t) ↔ _
    simp only [Except.ok.injEq, Prod.mk.injEq]
    tauto

/-- A program that is part of one with other faults. -/
def mapFault {ε' : Type} (f : ε → ε') (p : Program σ ε α) : Program σ ε' α := fun s => (p.run s).mapError f

@[simp] lemma returns_mapFault {ε' : Type} {f : ε → ε'} {p : Program σ ε α} {s t : σ} {a : α} :
    Returns (mapFault f p) s a t ↔ Returns p s a t := by
  change (p.run s).mapError f = .ok (a, t) ↔ p.run s = .ok (a, t)
  cases p.run s <;> simp [Except.mapError]

/-! The two loops the models use: a fold that threads a value, and a pass for its effect only. -/

@[simp] lemma returns_foldlM_nil {f : β → α → Program σ ε β} {b c : β} {s t : σ} :
    Returns (List.foldlM f b []) s c t ↔ c = b ∧ t = s := by
  simp

@[simp] lemma returns_foldlM_cons {f : β → α → Program σ ε β} {b c : β} {x : α} {xs : List α}
    {s t : σ} :
    Returns (List.foldlM f b (x :: xs)) s c t ↔
      ∃ b' u, Returns (f b x) s b' u ∧ Returns (List.foldlM f b' xs) u c t := by
  simp

/-- A loop that returned preserves whatever each of its returning iterations preserves. The
invariant sees the part of the list that is still to come. -/
lemma foldlM_preserves {f : β → α → Program σ ε β} (I : List α → β → σ → Prop)
    (hstep : ∀ x xs b s b' s', I (x :: xs) b s → Returns (f b x) s b' s' → I xs b' s') :
    ∀ {xs : List α} {b c : β} {s t : σ}, I xs b s → Returns (xs.foldlM f b) s c t → I [] c t := by
  intro xs
  induction xs with
  | nil =>
    intro b c s t hi hr
    obtain ⟨rfl, rfl⟩ := returns_foldlM_nil.mp hr
    exact hi
  | cons x xs ih =>
    intro b c s t hi hr
    obtain ⟨b', u, hf, hrest⟩ := returns_foldlM_cons.mp hr
    exact ih (hstep x xs b s b' u hi hf) hrest

/-- A loop returns when each iteration does under the invariant, and the invariant survives it. -/
lemma foldlM_returns {f : β → α → Program σ ε β} (I : List α → β → σ → Prop)
    (hstep : ∀ x xs b s, I (x :: xs) b s → ∃ b' s', Returns (f b x) s b' s' ∧ I xs b' s') :
    ∀ {xs : List α} {b : β} {s : σ}, I xs b s →
      ∃ c t, Returns (xs.foldlM f b) s c t ∧ I [] c t := by
  intro xs
  induction xs with
  | nil => exact fun {b s} hi => ⟨b, s, by simp, hi⟩
  | cons x xs ih =>
    intro b s hi
    obtain ⟨b', s', hf, hi'⟩ := hstep x xs b s hi
    obtain ⟨c, t, hr, ht⟩ := ih hi'
    exact ⟨c, t, returns_foldlM_cons.mpr ⟨b', s', hf, hr⟩, ht⟩

@[simp] lemma returns_forM_nil {f : α → Program σ ε Unit} {s t : σ} {a : Unit} :
    Returns (([] : List α).forM f) s a t ↔ t = s := by
  simp

@[simp] lemma returns_forM_cons {f : α → Program σ ε Unit} {x : α} {xs : List α}
    {s t : σ} {a : Unit} :
    Returns ((x :: xs).forM f) s a t ↔
      ∃ u, Returns (f x) s ⟨⟩ u ∧ Returns (xs.forM f) u ⟨⟩ t := by
  simp only [List.forM_eq_forM, List.forM_cons, returns_bind]
  constructor
  · rintro ⟨_, u, hx, hxs⟩
    exact ⟨u, hx, hxs⟩
  · rintro ⟨u, hx, hxs⟩
    exact ⟨(), u, hx, hxs⟩

lemma mapM_reads {f : α → Program σ ε β} {R : α → β → Prop} {xs : List α} {s : σ}
    (hstep : ∀ x ∈ xs, ∃ y, Returns (f x) s y s ∧ R x y) :
    ∃ ys, Returns (xs.mapM f) s ys s ∧ List.Forall₂ R xs ys := by
  induction xs with
  | nil => exact ⟨[], by simp, .nil⟩
  | cons x xs ih =>
    obtain ⟨y, hf, hR⟩ := hstep x List.mem_cons_self
    obtain ⟨ys, hr, hall⟩ := ih (fun z hz => hstep z (List.mem_cons_of_mem _ hz))
    refine ⟨y :: ys, ?_, .cons hR hall⟩
    rw [List.mapM_cons, returns_bind]
    refine ⟨y, s, hf, ?_⟩
    rw [returns_bind]
    exact ⟨ys, s, hr, by simp⟩

lemma returns_mapM_reads {f : α → Program σ ε β} {R : α → β → Prop} {s : σ} {xs : List α}
    (hf : ∀ x ∈ xs, ∀ y t, Returns (f x) s y t ↔ R x y ∧ t = s) {ys : List β} {t : σ} :
    Returns (xs.mapM f) s ys t ↔ List.Forall₂ R xs ys ∧ t = s := by
  induction xs generalizing ys t with
  | nil => simp
  | cons x xs ih =>
    have ih' := fun ys t => @ih (fun z hz => hf z (List.mem_cons_of_mem _ hz)) ys t
    rw [List.mapM_cons, returns_bind]
    constructor
    · rintro ⟨y, u, hy, hrest⟩
      obtain ⟨hR, rfl⟩ := (hf x List.mem_cons_self y u).mp hy
      obtain ⟨zs, u, hzs, hret⟩ := returns_bind.mp hrest
      obtain ⟨hall, rfl⟩ := (ih' zs u).mp hzs
      obtain ⟨rfl, rfl⟩ := returns_pure.mp hret
      exact ⟨.cons hR hall, rfl⟩
    · rintro ⟨hall, rfl⟩
      cases hall with
      | @cons _ y _ zs hR hall =>
        refine ⟨y, t, (hf x List.mem_cons_self y t).mpr ⟨hR, rfl⟩, ?_⟩
        exact returns_bind.mpr ⟨zs, t, (ih' zs t).mpr ⟨hall, rfl⟩, returns_pure.mpr ⟨rfl, rfl⟩⟩

/-! Which fault a program stops with. -/

def Stops (p : Program σ ε α) (s : σ) (e : ε) : Prop := p.run s = .error e

section Stopping

variable {s t : σ} {a : α} {b : β} {e : ε}

lemma returns_or_stops (p : Program σ ε α) (s : σ) : (∃ a t, Returns p s a t) ∨ ∃ e, Stops p s e := by
  cases hrun : p.run s with
  | ok r => exact .inl ⟨r.1, r.2, hrun⟩
  | error e => exact .inr ⟨e, hrun⟩

lemma Returns.not_stops {p : Program σ ε α} (h : Returns p s a t) : ¬ Stops p s e := by
  intro he
  rw [Returns, he] at h
  cases h

@[simp] lemma stops_pure : ¬ Stops (pure a : Program σ ε α) s e :=
  Returns.not_stops (returns_pure.mpr ⟨rfl, rfl⟩)

@[simp] lemma stops_bind {p : Program σ ε α} {f : α → Program σ ε β} :
    Stops (p >>= f) s e ↔ Stops p s e ∨ ∃ a t, Returns p s a t ∧ Stops (f a) t e := by
  simp only [Stops, Returns, StateT.run_bind]
  cases hp : p.run s with
  | error e => simp [bind, Except.bind]
  | ok r =>
    obtain ⟨a, t⟩ := r
    simp [bind, Except.bind]

@[simp] lemma stops_ofResult {r : Except ε α} : Stops (ofResult r) s e ↔ r = .error e := by
  cases r with
  | error e' => simp [Stops, ofResult, StateT.lift, StateT.run, bind, Except.bind]
  | ok a => exact iff_of_false (Returns.not_stops (returns_ofResult.mpr ⟨rfl, rfl⟩)) (by simp)

@[simp] lemma stops_mapFault {ε' : Type} {f : ε → ε'} {p : Program σ ε α} {e : ε'} :
    Stops (mapFault f p) s e ↔ ∃ e₀, Stops p s e₀ ∧ e = f e₀ := by
  change (p.run s).mapError f = .error e ↔ ∃ e₀, p.run s = .error e₀ ∧ e = f e₀
  cases p.run s <;> simp [Except.mapError, eq_comm]

/-- A loop stops in one of its iterations, after those before it returned. -/
lemma stops_foldlM {f : β → α → Program σ ε β} {xs : List α} : Stops (xs.foldlM f b) s e ↔
    ∃ before x after, xs = before ++ x :: after ∧ ∃ c t, Returns (before.foldlM f b) s c t ∧ Stops (f c x) t e := by
  induction xs generalizing b s with
  | nil => simp
  | cons x xs ih =>
    rw [List.foldlM_cons, stops_bind]
    constructor
    · rintro (hx | ⟨c, t, hx, hxs⟩)
      · exact ⟨[], x, xs, rfl, b, s, by simp, hx⟩
      · obtain ⟨before, y, after, rfl, c', t', hbefore, hy⟩ := ih.mp hxs
        exact ⟨x :: before, y, after, rfl, c', t', returns_foldlM_cons.mpr ⟨c, t, hx, hbefore⟩, hy⟩
    · rintro ⟨before, y, after, hsplit, c', t', hbefore, hy⟩
      cases before with
      | nil =>
        obtain ⟨rfl, rfl⟩ := List.cons.inj hsplit
        obtain ⟨rfl, rfl⟩ := returns_foldlM_nil.mp hbefore
        exact .inl hy
      | cons z before =>
        obtain ⟨rfl, rfl⟩ := List.cons.inj hsplit
        obtain ⟨c, t, hx, hrest⟩ := returns_foldlM_cons.mp hbefore
        exact .inr ⟨c, t, hx, ih.mpr ⟨before, y, after, rfl, c', t', hrest, hy⟩⟩

end Stopping

/-! Exceptions that are values: what the program did before one is thrown stays done. -/

def Yields (p : ExceptT χ (Program σ ε) α) (s : σ) (a : α) (t : σ) : Prop := Returns p.run s (.ok a) t

def Raises (p : ExceptT χ (Program σ ε) α) (s : σ) (x : χ) (t : σ) : Prop := Returns p.run s (.error x) t

section Exceptions

variable {s t u : σ} {a : α} {b : β} {x : χ}

@[simp] lemma yields_pure {c : α} : Yields (pure c : ExceptT χ (Program σ ε) α) s a t ↔ a = c ∧ t = s := by
  simp [Yields]

@[simp] lemma raises_pure {c : α} : ¬ Raises (pure c : ExceptT χ (Program σ ε) α) s x t := by
  simp [Raises]

lemma returns_bind_run {p : ExceptT χ (Program σ ε) α} {f : α → ExceptT χ (Program σ ε) β}
    {r : Except χ β} : Returns (p >>= f).run s r t ↔
      (∃ a u, Yields p s a u ∧ Returns (f a).run u r t) ∨ ∃ x, r = .error x ∧ Raises p s x t := by
  rw [ExceptT.run_bind, returns_bind]
  constructor
  · rintro ⟨c, u, hp, hf⟩
    cases c with
    | ok a => exact .inl ⟨a, u, hp, hf⟩
    | error x =>
      obtain ⟨rfl, rfl⟩ := returns_pure.mp hf
      exact .inr ⟨x, rfl, hp⟩
  · rintro (⟨a, u, hp, hf⟩ | ⟨x, rfl, hp⟩)
    · exact ⟨.ok a, u, hp, hf⟩
    · exact ⟨.error x, t, hp, returns_pure.mpr ⟨rfl, rfl⟩⟩

@[simp] lemma yields_bind {p : ExceptT χ (Program σ ε) α} {f : α → ExceptT χ (Program σ ε) β} :
    Yields (p >>= f) s b t ↔ ∃ a u, Yields p s a u ∧ Yields (f a) u b t := by
  rw [Yields, returns_bind_run, or_iff_left]
  · rfl
  · rintro ⟨x, hx, -⟩
    cases hx

@[simp] lemma raises_bind {p : ExceptT χ (Program σ ε) α} {f : α → ExceptT χ (Program σ ε) β} :
    Raises (p >>= f) s x t ↔ Raises p s x t ∨ ∃ a u, Yields p s a u ∧ Raises (f a) u x t := by
  rw [Raises, returns_bind_run]
  constructor
  · rintro (h | ⟨y, hxy, h⟩)
    · exact .inr h
    · exact .inl (Except.error.inj hxy ▸ h)
  · rintro (h | h)
    · exact .inr ⟨x, rfl, h⟩
    · exact .inl h

@[simp] lemma yields_lift {p : Program σ ε α} :
    Yields (liftM p : ExceptT χ (Program σ ε) α) s a t ↔ Returns p s a t := by
  simp [Yields]

@[simp] lemma raises_lift {p : Program σ ε α} : ¬ Raises (liftM p : ExceptT χ (Program σ ε) α) s x t := by
  simp [Raises]

@[simp] lemma yields_get {r : σ} :
    Yields (get : ExceptT χ (Program σ ε) σ) s r t ↔ r = s ∧ t = s :=
  (yields_lift (p := (get : Program σ ε σ))).trans returns_get

@[simp] lemma raises_get : ¬ Raises (get : ExceptT χ (Program σ ε) σ) s x t :=
  raises_lift (p := (get : Program σ ε σ))

end Exceptions

end DagScheduler.Library.Programs

import DagScheduler.Library.Lists

/-! Results that are a value or an error: which value or error comes out of a computation that is
put together of smaller ones. -/

namespace DagScheduler.Library.Results

variable {ε ε' α β : Type}

lemma bind_eq_ok {r : Except ε α} {f : α → Except ε β} {b : β} :
    (r >>= f) = .ok b ↔ ∃ a, r = .ok a ∧ f a = .ok b := by
  cases r <;> simp [bind, Except.bind]

lemma bind_eq_error {r : Except ε α} {f : α → Except ε β} {e : ε} :
    (r >>= f) = .error e ↔ r = .error e ∨ ∃ a, r = .ok a ∧ f a = .error e := by
  cases r <;> simp [bind, Except.bind]

lemma mapError_eq_ok {r : Except ε α} {f : ε → ε'} {a : α} : r.mapError f = .ok a ↔ r = .ok a := by
  cases r <;> simp [Except.mapError]

lemma mapError_eq_error {r : Except ε α} {f : ε → ε'} {e : ε'} :
    r.mapError f = .error e ↔ ∃ e₀, r = .error e₀ ∧ e = f e₀ := by
  cases r <;> simp [Except.mapError, eq_comm]

/-- Whatever error comes out is of the kind `Q`. -/
def Errors (Q : ε → Prop) (r : Except ε α) : Prop := ∀ e, r = .error e → Q e

namespace Errors

variable {Q Q' : ε → Prop} {r : Except ε α}

lemma ok (a : α) : Errors Q (.ok a) := fun _ h => by cases h

lemma error {e : ε} (h : Q e) : Errors Q (.error e : Except ε α) := fun _ he => Except.error.inj he ▸ h

lemma mono (h : Errors Q r) (hQ : ∀ e, Q e → Q' e) : Errors Q' r := fun e he => hQ e (h e he)

lemma bind {f : α → Except ε β} (h : Errors Q r) (hf : ∀ a, r = .ok a → Errors Q (f a)) : Errors Q (r >>= f) := by
  intro e he
  rcases bind_eq_error.mp he with he | ⟨a, ha, he⟩
  · exact h e he
  · exact hf a ha e he

lemma mapError {Q : ε' → Prop} {f : ε → ε'} (h : ∀ e, Q (f e)) (r : Except ε α) : Errors Q (r.mapError f) := by
  intro e he
  obtain ⟨e₀, -, rfl⟩ := mapError_eq_error.mp he
  exact h e₀

end Errors

lemma mapM_eq_ok {f : α → Except ε β} {xs : List α} {ys : List β} :
    xs.mapM f = .ok ys ↔ List.Forall₂ (fun x y => f x = .ok y) xs ys := by
  induction xs generalizing ys with
  | nil => simp [pure, Except.pure, eq_comm]
  | cons x xs ih =>
    simp only [List.mapM_cons, bind_eq_ok, ih]
    constructor
    · rintro ⟨y, hy, zs, hzs, hys⟩
      obtain rfl := Except.ok.inj hys
      exact .cons hy hzs
    · intro h
      cases h with
      | cons hy hzs => exact ⟨_, hy, _, hzs, rfl⟩

lemma mapM_succeeds {f : α → Except ε β} {R : α → β → Prop} {xs : List α} (h : ∀ x ∈ xs, ∃ y, f x = .ok y ∧ R x y) :
    ∃ ys, xs.mapM f = .ok ys ∧ List.Forall₂ R xs ys := by
  induction xs with
  | nil => exact ⟨[], rfl, .nil⟩
  | cons x xs ih =>
    obtain ⟨⟨y, hy, hR⟩, hrest⟩ := List.forall_mem_cons.mp h
    obtain ⟨ys, hys, hall⟩ := ih hrest
    refine ⟨y :: ys, ?_, .cons hR hall⟩
    rw [List.mapM_cons]
    exact bind_eq_ok.mpr ⟨y, hy, bind_eq_ok.mpr ⟨ys, hys, rfl⟩⟩

lemma mapM_eq_ok_mem {f : α → Except ε β} {xs : List α} {ys : List β} (h : xs.mapM f = .ok ys) :
    ∀ x ∈ xs, ∃ y, f x = .ok y := by
  intro x hx
  obtain ⟨y, -, hxy⟩ := (Lists.exists_of_forall₂ (mapM_eq_ok.mp h)).1 x hx
  exact ⟨y, hxy⟩

/-- A pass fails with the error of the first element that fails. -/
lemma mapM_eq_error {f : α → Except ε β} {xs : List α} {e : ε} :
    xs.mapM f = .error e ↔ ∃ before x after, xs = before ++ x :: after ∧
      (∀ y ∈ before, ∃ z, f y = .ok z) ∧ f x = .error e := by
  induction xs with
  | nil => simp [pure, Except.pure]
  | cons x xs ih =>
    simp only [List.mapM_cons, bind_eq_error]
    constructor
    · rintro (hx | ⟨z, hx, hxs | ⟨zs, -, hpure⟩⟩)
      · exact ⟨[], x, xs, rfl, by simp, hx⟩
      · obtain ⟨before, y, after, rfl, hbefore, hy⟩ := ih.mp hxs
        exact ⟨x :: before, y, after, rfl, List.forall_mem_cons.mpr ⟨⟨z, hx⟩, hbefore⟩, hy⟩
      · cases hpure
    · rintro ⟨before, y, after, hsplit, hbefore, hy⟩
      cases before with
      | nil =>
        obtain ⟨rfl, rfl⟩ := List.cons.inj hsplit
        exact .inl hy
      | cons w before =>
        obtain ⟨rfl, rfl⟩ := List.cons.inj hsplit
        obtain ⟨⟨z, hx⟩, hrest⟩ := List.forall_mem_cons.mp hbefore
        exact .inr ⟨z, hx, .inl (ih.mpr ⟨before, y, after, rfl, hrest, hy⟩)⟩

end DagScheduler.Library.Results

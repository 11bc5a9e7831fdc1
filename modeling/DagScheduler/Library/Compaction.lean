import Mathlib.Data.List.Basic
import Mathlib.Tactic.Common

/-! `std::remove_if` over a sequence of owning pointers, with a predicate that takes what it
matches. A slot that was moved from is empty; looking through an empty one is undefined. -/

namespace DagScheduler.Library.Compaction

variable {α : Type} {x : α} {slots : List (Option α)} {taken : Option α}

structure Result (α : Type) where
  slots : List (Option α)
  last : ℕ
  taken : Option α

/-- The loop with `n` slots to go, at slot `i`, with `first` for the next element that stays. Up to
the first match nothing is moved. -/
def removeFrom (p : α → Bool) (slots : List (Option α)) (taken : Option α) (first i : ℕ) : ℕ → Option (Result α)
  | 0 => some ⟨slots, first, taken⟩
  | n + 1 =>
    match (slots[i]?).join with
    | none => none
    | some x =>
      if p x then removeFrom p (slots.set i none) (some x) first (i + 1) n
      else if first = i then removeFrom p slots taken (first + 1) (i + 1) n
      else removeFrom p ((slots.set first (some x)).set i none) taken (first + 1) (i + 1) n

def removeIf (p : α → Bool) (slots : List (Option α)) (taken : Option α) : Option (Result α) :=
  removeFrom p slots taken 0 0 slots.length

def layout (kept : List α) (gap : ℕ) (rest : List (Option α)) : List (Option α) :=
  kept.map some ++ (List.replicate gap none ++ rest)

lemma layout_get (kept : List α) (gap : ℕ) (y : Option α) (rest : List (Option α)) :
    (layout kept gap (y :: rest))[kept.length + gap]? = some y := by
  rw [layout, List.getElem?_append_right (by simp), List.length_map, Nat.add_sub_cancel_left,
    List.getElem?_append_right (by simp), List.length_replicate, Nat.sub_self, List.getElem?_cons_zero]

lemma layout_take (kept : List α) (gap : ℕ) (y : Option α) (rest : List (Option α)) :
    (layout kept gap (y :: rest)).set (kept.length + gap) none = layout kept (gap + 1) rest := by
  have hset : (List.replicate gap none ++ y :: rest).set gap none = List.replicate (gap + 1) none ++ rest := by
    rw [List.set_append_right _ _ (by simp), List.length_replicate, Nat.sub_self, List.set_cons_zero,
      List.replicate_succ', List.append_assoc, List.singleton_append]
  rw [layout, List.set_append_right _ _ (by simp), List.length_map, Nat.add_sub_cancel_left, hset, layout]

lemma layout_move (kept : List α) (gap : ℕ) (rest : List (Option α)) :
    ((layout kept (gap + 1) (some x :: rest)).set kept.length (some x)).set (kept.length + (gap + 1)) none =
      layout (kept ++ [x]) (gap + 1) rest := by
  have hset : (layout kept (gap + 1) (some x :: rest)).set kept.length (some x) =
      layout (kept ++ [x]) gap (some x :: rest) := by
    rw [layout, List.set_append_right _ _ (by simp), List.length_map, Nat.sub_self, List.replicate_succ,
      List.cons_append, List.set_cons_zero, layout, List.map_append, List.append_assoc]
    rfl
  have hlen : kept.length + (gap + 1) = (kept ++ [x]).length + gap := by
    rw [List.length_append, List.length_singleton]
    omega
  rw [hset, hlen, layout_take]

lemma layout_stay (kept : List α) (rest : List (Option α)) :
    layout kept 0 (some x :: rest) = layout (kept ++ [x]) 0 rest := by
  simp [layout]

lemma removeFrom_take {ys : List (Option α)} (p : α → Bool) (hp : p x = true) (kept : List α) (gap : ℕ)
    (taken : Option α) :
    removeFrom p (layout kept gap (some x :: ys)) taken kept.length (kept.length + gap) (ys.length + 1) =
      removeFrom p (layout kept (gap + 1) ys) (some x) kept.length (kept.length + (gap + 1)) ys.length := by
  simp only [removeFrom, layout_get, Option.join_some, if_pos hp, layout_take]
  rfl

lemma removeFrom_keep {ys : List (Option α)} (p : α → Bool) (hp : ¬ p x = true) (kept : List α) (gap : ℕ)
    (taken : Option α) :
    removeFrom p (layout kept gap (some x :: ys)) taken kept.length (kept.length + gap) (ys.length + 1) =
      removeFrom p (layout (kept ++ [x]) gap ys) taken (kept ++ [x]).length ((kept ++ [x]).length + gap)
        ys.length := by
  have hlen : kept.length + 1 = (kept ++ [x]).length := by simp
  have hnext : kept.length + gap + 1 = (kept ++ [x]).length + gap := by omega
  simp only [removeFrom, layout_get, Option.join_some, if_neg hp]
  cases gap with
  | zero =>
    rw [if_pos (by omega), layout_stay, hnext]
    rfl
  | succ gap => rw [if_neg (by omega), layout_move, hnext, hlen]

/-- The elements that do not match close ranks in their order; what matched last was taken. -/
lemma removeFrom_eq (p : α → Bool) (xs kept : List α) (gap : ℕ) (taken : Option α) :
    removeFrom p (layout kept gap (xs.map some)) taken kept.length (kept.length + gap) (xs.map some).length =
      some ⟨layout (kept ++ xs.filter (fun x => !p x)) (gap + (xs.filter p).length) [],
        (kept ++ xs.filter fun x => !p x).length, ((xs.filter p).getLast?).or taken⟩ := by
  induction xs generalizing kept gap taken with
  | nil => simp [removeFrom, layout]
  | cons x xs ih =>
    rw [List.map_cons, List.length_cons]
    by_cases hp : p x = true
    · have hlast : ((xs.filter p).getLast?).or (some x) = ((x :: xs).filter p).getLast?.or taken := by
        rw [List.filter_cons_of_pos hp, List.getLast?_cons]
        cases (xs.filter p).getLast? <;> rfl
      have hgap : gap + 1 + (xs.filter p).length = gap + ((x :: xs).filter p).length := by
        rw [List.filter_cons_of_pos hp, List.length_cons]
        omega
      have hrest : (x :: xs).filter (fun x => !p x) = xs.filter fun x => !p x :=
        List.filter_cons_of_neg (by simp [hp])
      rw [removeFrom_take p hp, ih, hlast, hgap, hrest]
    · have hkept : kept ++ [x] ++ xs.filter (fun x => !p x) = kept ++ (x :: xs).filter fun x => !p x := by
        rw [List.filter_cons_of_pos (by simp [hp]), List.append_assoc, List.singleton_append]
      rw [removeFrom_keep p hp, ih, hkept, List.filter_cons_of_neg hp]

lemma removeFrom_none (p : α → Bool) (ys : List (Option α)) (hnone : none ∈ ys) (kept : List α) (gap : ℕ)
    (taken : Option α) :
    removeFrom p (layout kept gap ys) taken kept.length (kept.length + gap) ys.length = none := by
  induction ys generalizing kept gap taken with
  | nil => simp at hnone
  | cons y ys ih =>
    rw [List.length_cons]
    cases y with
    | none => simp only [removeFrom, layout_get, Option.join_some]
    | some x =>
      have hys : none ∈ ys := by simpa using hnone
      by_cases hp : p x = true
      · rw [removeFrom_take p hp, ih hys]
      · rw [removeFrom_keep p hp, ih hys]

lemma removeIf_eq (p : α → Bool) (xs : List α) (taken : Option α) :
    removeIf p (xs.map some) taken =
      some ⟨layout (xs.filter fun x => !p x) (xs.filter p).length [], (xs.filter fun x => !p x).length,
        ((xs.filter p).getLast?).or taken⟩ := by
  have h := removeFrom_eq p xs [] 0 taken
  simpa [removeIf, layout] using h

lemma removeIf_none (p : α → Bool) (hnone : none ∈ slots) : removeIf p slots taken = none := by
  have h := removeFrom_none p slots hnone [] 0 taken
  simpa [removeIf, layout] using h

lemma take_layout (kept : List α) (gap : ℕ) : (layout kept gap []).take kept.length = kept.map some := by
  rw [layout, List.take_append_of_le_length (by simp), List.take_of_length_le (by simp)]

end DagScheduler.Library.Compaction

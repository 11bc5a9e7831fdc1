import DagScheduler.Library.Digraphs
import Mathlib.Order.Bounds.Basic

/-! The layers of a directed graph by the length of the longest incoming path, and how they come
off one after the other as the sources of what is left. -/

namespace DagScheduler.Library.Layers

open Digraphs
open scoped Classical

variable {α : Type}

inductive Walk (E : α → α → Prop) : ℕ → α → α → Prop
  | nil (v : α) : Walk E 0 v v
  | snoc {n : ℕ} {u v w : α} : Walk E n u v → E v w → Walk E (n + 1) u w

def HasWalk (E : α → α → Prop) (n : ℕ) (v : α) : Prop := ∃ u, Walk E n u v

/-- The longest path that ends in `v` has `k` edges. -/
def LongestIncoming (E : α → α → Prop) (v : α) (k : ℕ) : Prop := IsGreatest {n | HasWalk E n v} k

lemma hasWalk_zero (E : α → α → Prop) (v : α) : HasWalk E 0 v := ⟨v, .nil v⟩

lemma hasWalk_succ {E : α → α → Prop} {n : ℕ} {w : α} :
    HasWalk E (n + 1) w ↔ ∃ v, HasWalk E n v ∧ E v w := by
  constructor
  · rintro ⟨u, hw⟩
    cases hw with
    | snoc hv he => exact ⟨_, ⟨u, hv⟩, he⟩
  · rintro ⟨v, ⟨u, hv⟩, he⟩
    exact ⟨u, .snoc hv he⟩

lemma HasWalk.pred {E : α → α → Prop} {n : ℕ} {v : α} (h : HasWalk E (n + 1) v) :
    HasWalk E n v := by
  induction n generalizing v with
  | zero => exact hasWalk_zero E v
  | succ n ih =>
    obtain ⟨u, hu, he⟩ := hasWalk_succ.mp h
    exact hasWalk_succ.mpr ⟨u, ih hu, he⟩

lemma HasWalk.of_le {E : α → α → Prop} {m n : ℕ} {v : α} (h : HasWalk E n v) (hmn : m ≤ n) :
    HasWalk E m v := by
  induction hmn with
  | refl => exact h
  | step _ ih => exact ih h.pred

lemma longestIncoming_iff {E : α → α → Prop} {v : α} {k : ℕ} :
    LongestIncoming E v k ↔ HasWalk E k v ∧ ¬ HasWalk E (k + 1) v := by
  constructor
  · rintro ⟨hk, hub⟩
    refine ⟨hk, fun h => ?_⟩
    have := hub h
    omega
  · rintro ⟨hk, hn⟩
    refine ⟨hk, fun n h => ?_⟩
    by_contra hlt
    exact hn (HasWalk.of_le h (by omega))

lemma LongestIncoming.lt_of_edge {E : α → α → Prop} {u v : α} {j k : ℕ}
    (hu : LongestIncoming E u j) (hv : LongestIncoming E v k) (he : E u v) : j < k :=
  hv.2 (hasWalk_succ.mpr ⟨u, hu.1, he⟩)

/-! What is left after `k` rounds, and the `k`-th layer. -/

variable (V : List α) (succ : α → List α)

noncomputable def remaining (k : ℕ) : List α :=
  V.filter (fun v => HasWalk (Edge V succ) k v)

noncomputable def layer (k : ℕ) : List α :=
  V.filter (fun v => LongestIncoming (Edge V succ) v k)

@[simp] lemma mem_remaining {k : ℕ} {v : α} :
    v ∈ remaining V succ k ↔ v ∈ V ∧ HasWalk (Edge V succ) k v := by
  simp [remaining]

@[simp] lemma mem_layer {k : ℕ} {v : α} :
    v ∈ layer V succ k ↔ v ∈ V ∧ LongestIncoming (Edge V succ) v k := by
  simp [layer]

lemma remaining_zero : remaining V succ 0 = V := by
  simp [remaining, hasWalk_zero]

variable {V succ}

lemma source_iff {k : ℕ} {v : α} :
    (∀ u ∈ remaining V succ k, v ∉ succ u) ↔ ¬ HasWalk (Edge V succ) (k + 1) v := by
  rw [hasWalk_succ]
  constructor
  · rintro h ⟨u, hu, he⟩
    exact h u (by simp [he.1, hu]) he.2
  · intro h u hu huv
    rw [mem_remaining] at hu
    exact h ⟨u, hu.2, hu.1, huv⟩

lemma filter_sources (k : ℕ) :
    (remaining V succ k).filter (fun v => ∀ u ∈ remaining V succ k, v ∉ succ u) =
      layer V succ k := by
  simp only [source_iff]
  simp only [remaining, layer, List.filter_filter, longestIncoming_iff]
  apply List.filter_congr
  intro v _
  by_cases hk : HasWalk (Edge V succ) k v <;> simp [hk]

lemma filter_not_layer (k : ℕ) :
    (remaining V succ k).filter (fun v => v ∉ layer V succ k) = remaining V succ (k + 1) := by
  simp only [remaining, List.filter_filter]
  apply List.filter_congr
  intro v hv
  simp only [mem_layer, hv, true_and, longestIncoming_iff]
  by_cases hk : HasWalk (Edge V succ) (k + 1) v
  · simp [hk, hk.pred]
  · by_cases hk' : HasWalk (Edge V succ) k v <;> simp [hk, hk']

lemma layer_ne_nil {k : ℕ} (ha : Acyclic (Edge V succ)) (hne : remaining V succ k ≠ []) :
    layer V succ k ≠ [] := by
  have ha' : Acyclic (Edge (remaining V succ k) succ) :=
    ha.mono (fun u v he => ⟨((mem_remaining V succ).mp he.1).1, he.2⟩)
  obtain ⟨v, hv, hsrc⟩ := exists_source ha' hne
  have hm : v ∈ layer V succ k := by
    rw [← filter_sources]
    simpa [hv] using hsrc
  exact List.ne_nil_of_mem hm

lemma remaining_length_lt {k : ℕ} (ha : Acyclic (Edge V succ)) (hne : remaining V succ k ≠ []) :
    (remaining V succ (k + 1)).length < (remaining V succ k).length := by
  obtain ⟨v, hv⟩ := List.exists_mem_of_ne_nil _ (layer_ne_nil ha hne)
  rw [← filter_not_layer, List.length_filter_lt_length_iff_exists]
  have hvk : v ∈ remaining V succ k := by
    rw [mem_layer, longestIncoming_iff] at hv
    simp [hv.1, hv.2.1]
  exact ⟨v, hvk, by simpa using hv⟩

lemma exists_layer {k : ℕ} (hk : remaining V succ k = []) {v : α} (hv : v ∈ V) :
    ∃ j < k, v ∈ layer V succ j := by
  have hend : ¬ HasWalk (Edge V succ) k v := fun hw => by
    have hm : v ∈ remaining V succ k := by simp [hv, hw]
    simp [hk] at hm
  have hmin : ∃ n, ¬ HasWalk (Edge V succ) n v := ⟨k, hend⟩
  have hfind := Nat.find_spec hmin
  have hpos : Nat.find hmin ≠ 0 := fun h0 => by
    rw [h0] at hfind
    exact hfind (hasWalk_zero _ v)
  obtain ⟨j, hj⟩ := Nat.exists_eq_succ_of_ne_zero hpos
  have hle : Nat.find hmin ≤ k := Nat.find_min' hmin hend
  have hprev : HasWalk (Edge V succ) j v := by
    by_contra hn
    have := Nat.find_min' hmin hn
    omega
  rw [hj] at hfind
  exact ⟨j, by omega, by simp [hv, longestIncoming_iff, hprev, hfind]⟩

/-! A copy of the graph has the copies of its layers. -/

section Copy

variable {β : Type} {succ' : β → List β} {φ : α → β}

lemma hasWalk_map (hc : Closed V succ) (hinj : ∀ u ∈ V, ∀ v ∈ V, φ u = φ v → u = v)
    (hsucc : ∀ u ∈ V, ∀ y, y ∈ succ' (φ u) ↔ ∃ v ∈ succ u, φ v = y) {n : ℕ} {v : α} (hv : v ∈ V) :
    HasWalk (Edge (V.map φ) succ') n (φ v) ↔ HasWalk (Edge V succ) n v := by
  induction n generalizing v with
  | zero => exact ⟨fun _ => hasWalk_zero _ v, fun _ => hasWalk_zero _ _⟩
  | succ n ih =>
    rw [hasWalk_succ, hasWalk_succ]
    constructor
    · rintro ⟨y, hy, hyV, hyv⟩
      obtain ⟨u, hu, rfl⟩ := List.mem_map.mp hyV
      obtain ⟨w, hw, hwv⟩ := (hsucc u hu _).mp hyv
      obtain rfl : w = v := hinj w (hc u hu w hw) v hv hwv
      exact ⟨u, (ih hu).mp hy, hu, hw⟩
    · rintro ⟨u, hu, huV, huv⟩
      exact ⟨φ u, (ih huV).mpr hu, List.mem_map_of_mem huV, (hsucc u huV _).mpr ⟨v, huv, rfl⟩⟩

lemma layer_map (hc : Closed V succ) (hinj : ∀ u ∈ V, ∀ v ∈ V, φ u = φ v → u = v)
    (hsucc : ∀ u ∈ V, ∀ y, y ∈ succ' (φ u) ↔ ∃ v ∈ succ u, φ v = y) (k : ℕ) :
    layer (V.map φ) succ' k = (layer V succ k).map φ := by
  rw [layer, List.filter_map, layer]
  congr 1
  apply List.filter_congr
  intro v hv
  simp only [Function.comp_apply, longestIncoming_iff, hasWalk_map hc hinj hsucc hv]

lemma remaining_map (hc : Closed V succ) (hinj : ∀ u ∈ V, ∀ v ∈ V, φ u = φ v → u = v)
    (hsucc : ∀ u ∈ V, ∀ y, y ∈ succ' (φ u) ↔ ∃ v ∈ succ u, φ v = y) (k : ℕ) :
    remaining (V.map φ) succ' k = (remaining V succ k).map φ := by
  rw [remaining, List.filter_map, remaining]
  congr 1
  apply List.filter_congr
  intro v hv
  simp only [Function.comp_apply, hasWalk_map hc hinj hsucc hv]

end Copy

lemma layers_perm (hV : V.Nodup) {n : ℕ} (hn : remaining V succ n = []) :
    ((List.range n).map (layer V succ)).flatten.Perm V := by
  have hnodup : ((List.range n).map (layer V succ)).flatten.Nodup := by
    rw [List.nodup_flatten]
    constructor
    · intro l hl
      obtain ⟨k, -, rfl⟩ := List.mem_map.mp hl
      exact hV.filter _
    · rw [List.pairwise_map]
      refine List.nodup_range.imp ?_
      intro j k hjk v hj hk
      rw [mem_layer] at hj hk
      exact hjk (hj.2.unique hk.2)
  refine (List.perm_ext_iff_of_nodup hnodup hV).mpr (fun v => ?_)
  constructor
  · intro hv
    obtain ⟨l, hl, hvl⟩ := List.mem_flatten.mp hv
    obtain ⟨k, -, rfl⟩ := List.mem_map.mp hl
    exact ((mem_layer V succ).mp hvl).1
  · intro hv
    obtain ⟨k, hk, hvk⟩ := exists_layer hn hv
    exact List.mem_flatten.mpr ⟨_, List.mem_map.mpr ⟨k, List.mem_range.mpr hk, rfl⟩, hvk⟩

lemma remaining_succ_nil {n : ℕ} (hn : remaining V succ n = []) : remaining V succ (n + 1) = [] := by
  rw [← filter_not_layer, hn, List.filter_nil]

lemma layer_nil {n k : ℕ} (hn : remaining V succ n = []) (hk : n ≤ k) : layer V succ k = [] := by
  have hrem : remaining V succ k = [] := by
    induction hk with
    | refl => exact hn
    | step _ ih => exact remaining_succ_nil ih
  rw [← filter_sources, hrem, List.filter_nil]

end DagScheduler.Library.Layers

import Mathlib.Logic.Relation
import Mathlib.Order.WellFounded
import Mathlib.Data.Fintype.List
import Mathlib.Tactic

/-! Finite directed graphs given by lists of successors. -/

namespace DagScheduler.Library.Digraphs

open Relation

variable {α : Type}

def Edge (V : List α) (succ : α → List α) (u v : α) : Prop := u ∈ V ∧ v ∈ succ u

def Closed (V : List α) (succ : α → List α) : Prop := ∀ u ∈ V, ∀ v ∈ succ u, v ∈ V

def Acyclic (E : α → α → Prop) : Prop := ∀ v, ¬ TransGen E v v

/-- Some directed cycle reaches `v`; the path from the cycle may be empty. -/
def BehindCycle (E : α → α → Prop) (v : α) : Prop := ∃ c, TransGen E c c ∧ ReflTransGen E c v

lemma Acyclic.mono {E E' : α → α → Prop} (h : Acyclic E') (hsub : ∀ u v, E u v → E' u v) :
    Acyclic E :=
  fun v hv => h v (TransGen.mono hsub _ _ hv)

lemma acyclic_of_rank {E : α → α → Prop} (rank : α → ℕ) (h : ∀ u v, E u v → rank u < rank v) : Acyclic E := by
  have hlt : ∀ u v, TransGen E u v → rank u < rank v := by
    intro u v huv
    induction huv with
    | single he => exact h _ _ he
    | tail _ he ih => exact ih.trans (h _ _ he)
  exact fun v hv => Nat.lt_irrefl _ (hlt v v hv)

lemma acyclic_iff_behind {E : α → α → Prop} : Acyclic E ↔ ∀ v, ¬ BehindCycle E v := by
  constructor
  · rintro h v ⟨c, hc, _⟩
    exact h c hc
  · intro h v hv
    exact h v ⟨v, hv, .refl⟩

lemma Acyclic.of_source {E E' : α → α → Prop} {n : α} (h : Acyclic E) (hn : ∀ u, ¬ E' u n)
    (hsub : ∀ u v, u ≠ n → E' u v → E u v) : Acyclic E' := by
  have hne : ∀ u v, TransGen E' u v → v ≠ n := by
    intro u v huv
    obtain ⟨w, -, hw⟩ := TransGen.tail'_iff.mp huv
    rintro rfl
    exact hn w hw
  have hlift : ∀ u v, u ≠ n → TransGen E' u v → TransGen E u v := by
    intro u v hu huv
    induction huv with
    | single he => exact .single (hsub _ _ hu he)
    | tail hpre he ih => exact ih.tail (hsub _ _ (hne _ _ hpre) he)
  intro v hv
  exact h v (hlift v v (hne v v hv) hv)

lemma acyclic_image_iff {β : Type} {E : α → α → Prop} {E' : β → β → Prop} {φ : α → β} {S : Set α}
    (hφ : Set.InjOn φ S) (hS : ∀ u v, E u v → u ∈ S ∧ v ∈ S)
    (hE : ∀ x y, E' x y ↔ ∃ u v, E u v ∧ φ u = x ∧ φ v = y) : Acyclic E' ↔ Acyclic E := by
  have hback : ∀ x y, TransGen E' x y → ∃ u v, TransGen E u v ∧ φ u = x ∧ φ v = y := by
    intro x y h
    induction h with
    | single he =>
      obtain ⟨u, v, huv, hu, hv⟩ := (hE _ _).mp he
      exact ⟨u, v, .single huv, hu, hv⟩
    | tail _ he ih =>
      obtain ⟨u, v, huv, hu, hv⟩ := ih
      obtain ⟨v', w, hvw, hv', hw⟩ := (hE _ _).mp he
      obtain ⟨_, _, hlast⟩ := TransGen.tail'_iff.mp huv
      obtain rfl : v = v' := hφ (hS _ _ hlast).2 (hS _ _ hvw).1 (hv.trans hv'.symm)
      exact ⟨u, w, huv.tail hvw, hu, hw⟩
  constructor
  · intro h v hv
    exact h (φ v) (hv.lift φ (fun u w huw => (hE _ _).mpr ⟨u, w, huw, rfl, rfl⟩))
  · intro h x hx
    obtain ⟨u, v, huv, hu, hv⟩ := hback x x hx
    obtain ⟨_, hfirst, _⟩ := TransGen.head'_iff.mp huv
    obtain ⟨_, _, hlast⟩ := TransGen.tail'_iff.mp huv
    obtain rfl : u = v := hφ (hS _ _ hfirst).1 (hS _ _ hlast).2 (hu.trans hv.symm)
    exact h u huv

lemma reach_image_iff {β : Type} {E : α → α → Prop} {E' : β → β → Prop} {φ : α → β} {S : Set α}
    (hφ : Set.InjOn φ S) (hS : ∀ u v, E u v → u ∈ S ∧ v ∈ S)
    (hE : ∀ x y, E' x y ↔ ∃ u v, E u v ∧ φ u = x ∧ φ v = y) {a b : α} (ha : a ∈ S) (hb : b ∈ S) :
    ReflTransGen E' (φ a) (φ b) ↔ ReflTransGen E a b := by
  have hback : ∀ y, ReflTransGen E' (φ a) y → ∃ v ∈ S, ReflTransGen E a v ∧ φ v = y := by
    intro y h
    induction h with
    | refl => exact ⟨a, ha, .refl, rfl⟩
    | tail _ he ih =>
      obtain ⟨v, hv, hav, rfl⟩ := ih
      obtain ⟨v', w, hvw, hv', hw⟩ := (hE _ _).mp he
      obtain rfl : v' = v := hφ (hS _ _ hvw).1 hv hv'
      exact ⟨w, (hS _ _ hvw).2, hav.tail hvw, hw⟩
  constructor
  · intro h
    obtain ⟨v, hv, hav, hvb⟩ := hback _ h
    obtain rfl : v = b := hφ hv hb hvb
    exact hav
  · exact fun h => h.lift φ (fun u w huw => (hE _ _).mpr ⟨u, w, huw, rfl, rfl⟩)

lemma transGen_mem {V : List α} {succ : α → List α} (hc : Closed V succ) {u v : α}
    (h : TransGen (Edge V succ) u v) : u ∈ V ∧ v ∈ V := by
  induction h with
  | single he => exact ⟨he.1, hc _ he.1 _ he.2⟩
  | tail _ he ih => exact ⟨ih.1, hc _ he.1 _ he.2⟩

/-- In a finite set whose members all have a predecessor in the set, walking backwards ends in a
cycle. -/
lemma behindCycle_of_predecessors {E : α → α → Prop} {V : List α} {S : Set α}
    (hfin : ∀ v ∈ S, v ∈ V) (hpred : ∀ v ∈ S, ∃ u ∈ S, E u v) {v : α} (hv : v ∈ S) :
    BehindCycle E v := by
  by_contra hno
  let A := {x : α // x ∈ V ∧ ReflTransGen E x v}
  let r : A → A → Prop := fun x y => TransGen E x.1 y.1
  have hfinite : Finite A := by
    have hV : Finite {x : α // x ∈ V} := List.finite_toSet V
    exact Finite.of_injective (fun x : A => (⟨x.1, x.2.1⟩ : {x : α // x ∈ V}))
      (fun x y hxy => Subtype.ext (by simpa using hxy))
  have htrans : IsTrans A r := ⟨fun _ _ _ => TransGen.trans⟩
  have hirrefl : Std.Irrefl r := ⟨fun x hx => hno ⟨x.1, hx, x.2.2⟩⟩
  have hwf : WellFounded r := Finite.wellFounded_of_trans_of_irrefl r
  obtain ⟨x, hx, hmin⟩ := hwf.has_min {x : A | x.1 ∈ S} ⟨⟨v, hfin v hv, .refl⟩, hv⟩
  obtain ⟨u, hu, he⟩ := hpred x.1 hx
  exact hmin ⟨u, hfin u hu, ReflTransGen.head he x.2.2⟩ hu (TransGen.single he)

lemma exists_source {V : List α} {succ : α → List α} (ha : Acyclic (Edge V succ)) (hne : V ≠ []) :
    ∃ v ∈ V, ∀ u ∈ V, v ∉ succ u := by
  by_contra hno
  push Not at hno
  obtain ⟨v, hv⟩ := List.exists_mem_of_ne_nil V hne
  refine acyclic_iff_behind.mp ha v (behindCycle_of_predecessors (V := V) (S := {v | v ∈ V})
    (fun _ h => h) ?_ hv)
  intro w hw
  obtain ⟨u, hu, he⟩ := hno w hw
  exact ⟨u, hu, hu, he⟩

section Degrees

variable [DecidableEq α]

/-- Appends what is not there yet. -/
def extend (acc ys : List α) : List α :=
  ys.foldl (fun acc y => if y ∈ acc then acc else acc ++ [y]) acc

@[simp] lemma extend_nil (acc : List α) : extend acc [] = acc := rfl

lemma extend_cons (acc : List α) (y : α) (ys : List α) :
    extend acc (y :: ys) = extend (if y ∈ acc then acc else acc ++ [y]) ys := rfl

lemma mem_extend {acc ys : List α} {x : α} : x ∈ extend acc ys ↔ x ∈ acc ∨ x ∈ ys := by
  induction ys generalizing acc with
  | nil => simp
  | cons y ys ih =>
    rw [extend_cons, ih]
    split_ifs with hy
    · constructor
      · exact fun h => h.imp_right (List.mem_cons_of_mem _)
      · rintro (h | h)
        · exact .inl h
        · rcases List.mem_cons.mp h with rfl | h
          · exact .inl hy
          · exact .inr h
    · simp [or_assoc]

lemma extend_eq_append {acc ys : List α} (h : (acc ++ ys).Nodup) : extend acc ys = acc ++ ys := by
  induction ys generalizing acc with
  | nil => simp
  | cons y ys ih =>
    have hy : y ∉ acc := fun hy => (List.nodup_append.mp h).2.2 y hy y List.mem_cons_self rfl
    rw [extend_cons, if_neg hy, ih (by simpa using h)]
    simp

lemma extend_append (acc xs ys : List α) : extend acc (xs ++ ys) = extend (extend acc xs) ys := List.foldl_append

lemma extend_of_subset {acc ys : List α} (h : ys ⊆ acc) : extend acc ys = acc := by
  induction ys with
  | nil => rfl
  | cons y ys ih =>
    obtain ⟨hy, hys⟩ := List.cons_subset.mp h
    rw [extend_cons, if_pos hy, ih hys]

lemma isPrefix_extend (acc ys : List α) : acc <+: extend acc ys := by
  induction ys generalizing acc with
  | nil => exact List.prefix_rfl
  | cons y ys ih =>
    rw [extend_cons]
    split_ifs with hy
    · exact ih acc
    · exact (List.prefix_append acc [y]).trans (ih (acc ++ [y]))

lemma extend_eq_right_iff {acc ys : List α} (hn : ys.Nodup) : extend acc ys = ys ↔ acc <+: ys := by
  constructor
  · exact fun h => h ▸ isPrefix_extend acc ys
  · rintro ⟨zs, rfl⟩
    rw [extend_append, extend_of_subset (List.Subset.refl acc), extend_eq_append hn]

/-- Parallel edges count as often as they are listed. -/
def inDegree (V : List α) (succ : α → List α) (v : α) : ℕ := (V.flatMap succ).count v

@[simp] lemma inDegree_nil (succ : α → List α) (v : α) : inDegree [] succ v = 0 := by
  simp [inDegree]

@[simp] lemma inDegree_cons (u : α) (V : List α) (succ : α → List α) (v : α) :
    inDegree (u :: V) succ v = (succ u).count v + inDegree V succ v := by
  simp [inDegree, List.count_append]

lemma inDegree_pos {V : List α} {succ : α → List α} {v : α} :
    0 < inDegree V succ v ↔ ∃ u ∈ V, v ∈ succ u := by
  simp [inDegree, List.count_pos_iff]

lemma inDegree_eq_zero {V : List α} {succ : α → List α} {v : α} :
    inDegree V succ v = 0 ↔ ∀ u ∈ V, v ∉ succ u := by
  simp [inDegree, List.count_eq_zero]

lemma inDegree_congr_count {V : List α} {succ succ' : α → List α} {v : α}
    (h : ∀ u ∈ V, (succ u).count v = (succ' u).count v) : inDegree V succ v = inDegree V succ' v := by
  induction V with
  | nil => rfl
  | cons w V ih =>
    rw [inDegree_cons, inDegree_cons, h w List.mem_cons_self,
      ih (fun u hu => h u (List.mem_cons_of_mem _ hu))]

lemma inDegree_congr {V : List α} {succ succ' : α → List α} (h : ∀ u ∈ V, succ u = succ' u)
    (v : α) : inDegree V succ v = inDegree V succ' v :=
  inDegree_congr_count (fun u hu => by rw [h u hu])

lemma inDegree_update {V : List α} (hV : V.Nodup) {u : α} (hu : u ∈ V) (succ : α → List α)
    (xs : List α) (v : α) :
    inDegree V (Function.update succ u xs) v + (succ u).count v =
      inDegree V succ v + xs.count v := by
  induction V with
  | nil => simp at hu
  | cons w V ih =>
    obtain ⟨hw, hV'⟩ := List.nodup_cons.mp hV
    rcases List.mem_cons.mp hu with rfl | hu
    · have hrest : inDegree V (Function.update succ u xs) v = inDegree V succ v :=
        inDegree_congr (fun x hx => Function.update_of_ne (ne_of_mem_of_not_mem hx hw) _ _) v
      simp only [inDegree_cons, Function.update_self, hrest]
      omega
    · have hne : w ≠ u := fun he => hw (he ▸ hu)
      have := ih hV' hu
      simp only [inDegree_cons, Function.update_of_ne hne]
      omega

lemma inDegree_filter {V : List α} {succ : α → List α} (p : α → Bool)
    (h : ∀ u ∈ V, p u = false → succ u = []) (v : α) :
    inDegree (V.filter p) succ v = inDegree V succ v := by
  induction V with
  | nil => rfl
  | cons w V ih =>
    have ih' := ih (fun u hu => h u (List.mem_cons_of_mem _ hu))
    cases hp : p w with
    | true => simp [hp, ih']
    | false => simp [hp, ih', h w List.mem_cons_self hp]

lemma inDegree_append {V W : List α} {succ : α → List α} {v : α} :
    inDegree (V ++ W) succ v = inDegree V succ v + inDegree W succ v := by
  simp [inDegree]

lemma inDegree_perm {V W : List α} (hp : V.Perm W) (succ : α → List α) (v : α) :
    inDegree V succ v = inDegree W succ v := (hp.flatMap_right succ).count_eq v

lemma inDegree_le_of_subset {V W : List α} (hn : V.Nodup) (hs : V ⊆ W) (succ : α → List α) (v : α) :
    inDegree V succ v ≤ inDegree W succ v := by
  obtain ⟨V', hp, hsub⟩ := hn.subperm hs
  rw [← inDegree_perm hp]
  exact (hsub.flatMap succ).count_le v

lemma inDegree_partition (p : α → Bool) (V : List α) (succ : α → List α) (v : α) :
    inDegree (V.filter p) succ v + inDegree (V.filter fun u => !p u) succ v = inDegree V succ v := by
  induction V with
  | nil => rfl
  | cons w V ih =>
    cases hp : p w with
    | true =>
      simp only [hp, List.filter_cons_of_pos, Bool.not_true, Bool.false_eq_true, not_false_eq_true,
        List.filter_cons_of_neg, inDegree_cons]
      omega
    | false =>
      simp only [hp, Bool.false_eq_true, not_false_eq_true, List.filter_cons_of_neg, Bool.not_false,
        List.filter_cons_of_pos, inDegree_cons]
      omega

lemma inDegree_map {β : Type} [DecidableEq β] {V : List α} {succ : α → List α} {succ' : β → List β}
    {φ : α → β} {v : α} (hsucc : ∀ u ∈ V, succ' (φ u) = (succ u).map φ)
    (hinj : ∀ u ∈ V, ∀ w ∈ succ u, φ w = φ v → w = v) :
    inDegree (V.map φ) succ' (φ v) = inDegree V succ v := by
  induction V with
  | nil => rfl
  | cons w V ih =>
    have hcount : ((succ w).map φ).count (φ v) = (succ w).count v := by
      simp only [List.count_eq_countP, List.countP_map]
      apply List.countP_congr
      intro x hx
      simp only [Function.comp_apply, beq_iff_eq]
      exact ⟨hinj w List.mem_cons_self x hx, fun he => he ▸ rfl⟩
    simp only [List.map_cons, inDegree_cons, hsucc w List.mem_cons_self, hcount,
      ih (fun u hu => hsucc u (List.mem_cons_of_mem _ hu))
        (fun u hu => hinj u (List.mem_cons_of_mem _ hu))]

end Degrees

end DagScheduler.Library.Digraphs

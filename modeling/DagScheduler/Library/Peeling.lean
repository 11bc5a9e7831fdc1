import DagScheduler.Library.Layers
import DagScheduler.Library.Plans

/-! Taking a plan apart from its sources on: the batches that come off are its layers. -/

namespace DagScheduler.Library.Plans

open Digraphs Layers

namespace Plan

variable {κ α A : Type} [DecidableEq κ]

/-- Nothing points at the node. -/
def bare (p : Plan κ α) (n : Node κ α) : Bool := p.degree n.name = 0

/-- Each batch is what nothing points at once the batches before are taken out. -/
def peel : ℕ → Plan κ α → List (Plan κ α)
  | 0, _ => []
  | fuel + 1, p =>
    match p.filter p.bare with
    | [] => []
    | n :: ns => (n :: ns) :: peel fuel (p.filter fun n => !p.bare n)

lemma peel_succ {fuel : ℕ} {p : Plan κ α} (h : p.filter p.bare ≠ []) :
    peel (fuel + 1) p = p.filter p.bare :: peel fuel (p.filter fun n => !p.bare n) := by
  obtain ⟨n, ns, hfilter⟩ := List.exists_cons_of_ne_nil h
  rw [peel, hfilter]

lemma peel_nil (fuel : ℕ) : peel fuel ([] : Plan κ α) = [] := by
  cases fuel <;> rfl

section Draw

variable {V : List A} {name : A → κ} {f : A → α} {out : A → List (Option A)} {succ : A → List A} {k n fuel : ℕ}
  (hinj : ∀ a ∈ V, ∀ b ∈ V, name a = name b → a = b) (hclosed : Closed V succ)
  (hout : ∀ a b, some b ∈ out a ↔ b ∈ succ a)

include hinj hclosed hout

lemma bare_remaining {a : A} (ha : a ∈ remaining V succ k) :
    bare (draw (remaining V succ k) name f out) ⟨name a, f a, (out a).map (Option.map name)⟩ = true ↔
      a ∈ layer V succ k := by
  classical
  have hsub : ∀ b ∈ remaining V succ k, b ∈ V := fun b hb => ((mem_remaining V succ).mp hb).1
  have hinj' : ∀ b ∈ remaining V succ k, ∀ c ∈ remaining V succ k, name b = name c → b = c :=
    fun b hb c hc => hinj b (hsub b hb) c (hsub c hc)
  have hinside : ∀ b ∈ remaining V succ k, ∀ c, some c ∈ out b → c ∈ remaining V succ k := by
    intro b hb c hc
    obtain ⟨hbV, hwalk⟩ := (mem_remaining V succ).mp hb
    have hbc := (hout b c).mp hc
    exact (mem_remaining V succ).mpr ⟨hclosed b hbV c hbc, (hasWalk_succ.mpr ⟨b, hwalk, hbV, hbc⟩).pred⟩
  rw [bare, decide_eq_true_eq, degree_draw hinj' hinside ha, List.count_eq_zero, List.mem_flatMap, ← filter_sources,
    List.mem_filter, decide_eq_true_eq]
  constructor
  · exact fun h => ⟨ha, fun u hu hua => h ⟨u, hu, (hout u a).mpr hua⟩⟩
  · rintro ⟨-, hsource⟩ ⟨u, hu, hua⟩
    exact hsource u hu ((hout u a).mp hua)

lemma filter_bare : (draw (remaining V succ k) name f out).filter
    (bare (draw (remaining V succ k) name f out)) = draw (layer V succ k) name f out := by
  classical
  rw [← filter_sources k, draw, draw, List.filter_map]
  congr 1
  apply List.filter_congr
  intro a ha
  have hbare := bare_remaining (f := f) hinj hclosed hout ha
  rw [← filter_sources, List.mem_filter, and_iff_right ha] at hbare
  exact Bool.eq_iff_iff.mpr hbare

lemma filter_not_bare : ((draw (remaining V succ k) name f out).filter fun n =>
    !bare (draw (remaining V succ k) name f out) n) = draw (remaining V succ (k + 1)) name f out := by
  classical
  rw [← filter_not_layer, draw, draw, List.filter_map]
  congr 1
  apply List.filter_congr
  intro a ha
  rw [Function.comp_apply, Bool.eq_iff_iff, Bool.not_eq_true', decide_eq_true_eq, ← Bool.not_eq_true]
  exact not_congr (bare_remaining hinj hclosed hout ha)

/-- The layers come off one by one, and nothing else. -/
lemma peel_draw (hlayers : ∀ j, k ≤ j → j < k + n → layer V succ j ≠ [])
    (hnil : remaining V succ (k + n) = []) (hfuel : n ≤ fuel) :
    peel fuel (draw (remaining V succ k) name f out) =
      (List.range' k n).map fun j => draw (layer V succ j) name f out := by
  induction n generalizing k fuel with
  | zero =>
    have hdraw : draw (remaining V succ k) name f out = [] := by
      rw [Nat.add_zero] at hnil
      rw [hnil, draw, List.map_nil]
    rw [hdraw, peel_nil, List.range'_zero, List.map_nil]
  | succ n ih =>
    obtain ⟨fuel, rfl⟩ : ∃ f, fuel = f + 1 := ⟨fuel - 1, by omega⟩
    have hfirst := filter_bare (f := f) (k := k) hinj hclosed hout
    have hne : (draw (remaining V succ k) name f out).filter (bare (draw (remaining V succ k) name f out)) ≠ [] := by
      rw [hfirst, draw, Ne, List.map_eq_nil_iff]
      exact hlayers k le_rfl (by omega)
    rw [peel_succ hne, filter_not_bare hinj hclosed hout, hfirst, List.range'_succ, List.map_cons]
    congr 1
    refine ih (fun j hj hlt => hlayers j (by omega) (by omega)) ?_ (by omega)
    rw [← hnil]
    congr 1
    omega

end Draw

end Plan

end DagScheduler.Library.Plans

namespace DagScheduler.Library.Layers

variable {α : Type} {V : List α} {succ : α → List α} {n : ℕ}

lemma le_length_of_layers (hV : V.Nodup) (hn : remaining V succ n = []) (hne : ∀ j < n, layer V succ j ≠ []) :
    n ≤ V.length := by
  rw [← (layers_perm hV hn).length_eq, List.length_flatten]
  have hone : ∀ l ∈ ((List.range n).map (layer V succ)).map List.length, 1 ≤ l := by
    intro l hl
    simp only [List.mem_map, List.mem_range] at hl
    obtain ⟨_, ⟨j, hj, rfl⟩, rfl⟩ := hl
    exact List.length_pos_of_ne_nil (hne j hj)
  calc n = (((List.range n).map (layer V succ)).map List.length).length := by simp
    _ ≤ _ := List.length_le_sum_of_one_le _ hone

section Edgeless

variable (hsucc : ∀ v ∈ V, succ v = [])

include hsucc

lemma not_hasWalk_succ {k : ℕ} {v : α} : ¬ HasWalk (Digraphs.Edge V succ) (k + 1) v := by
  intro h
  obtain ⟨u, -, hu, huv⟩ := hasWalk_succ.mp h
  rw [hsucc u hu] at huv
  exact List.not_mem_nil huv

lemma layer_zero_of_edgeless : layer V succ 0 = V := by
  refine List.filter_eq_self.mpr fun v _ => ?_
  simpa [longestIncoming_iff, hasWalk_zero] using not_hasWalk_succ hsucc (k := 0)

lemma layer_succ_of_edgeless (k : ℕ) : layer V succ (k + 1) = [] := by
  refine List.filter_eq_nil_iff.mpr fun v _ => ?_
  simp [longestIncoming_iff, not_hasWalk_succ hsucc]

end Edgeless

end DagScheduler.Library.Layers

import DagScheduler.Library.Digraphs

/-! Kahn's algorithm on counters: vertices without incoming edges are queued, a vertex taken from
the queue has its edges cut one by one, and a target is queued when its counter reaches zero. -/

namespace DagScheduler.Library.Kahn

open Relation Digraphs

variable {α : Type} [DecidableEq α] {V : List α} {succ₀ succ : α → List α} {count : α → ℕ}
  {curr : Option α} {queue sorted : List α}

/-- What holds between any two cuts. `succ₀` is the graph at the start, `succ` what is left of it,
and `curr` the vertex whose edges are being cut. -/
structure Inv (V : List α) (succ₀ succ : α → List α) (count : α → ℕ) (curr : Option α)
    (queue sorted : List α) : Prop where
  nodup : (sorted ++ queue).Nodup
  mem : ∀ v ∈ sorted ++ queue, v ∈ V
  closed : Closed V succ
  counts : ∀ v ∈ V, count v = inDegree V succ v
  zero : ∀ v ∈ V, count v = 0 ↔ v ∈ sorted ++ queue
  done : ∀ v ∈ sorted, some v ≠ curr → succ v = []
  todo : ∀ v ∈ V, v ∉ sorted → succ v = succ₀ v
  order : ∀ l₁ v l₂, sorted = l₁ ++ v :: l₂ → ∀ u ∈ V, v ∈ succ₀ u → u ∈ l₁

lemma Inv.start (hV : V.Nodup) (hc : Closed V succ₀)
    (hcount : ∀ v ∈ V, count v = inDegree V succ₀ v) :
    Inv V succ₀ succ₀ count none (V.filter (fun v => count v = 0)) [] where
  nodup := by simpa using hV.filter _
  mem v hv := by
    simp only [List.nil_append, List.mem_filter] at hv
    exact hv.1
  closed := hc
  counts := hcount
  zero v hv := by simp [hv]
  done v hv := by simp at hv
  todo _ _ _ := rfl
  order l₁ v l₂ he := by simp at he

lemma Inv.pop {c : α} (h : Inv V succ₀ succ count none (c :: queue) sorted) :
    Inv V succ₀ succ count (some c) queue (sorted ++ [c]) where
  nodup := by simpa using h.nodup
  mem v hv := h.mem v (by simpa using hv)
  closed := h.closed
  counts := h.counts
  zero v hv := by simpa using h.zero v hv
  done v hv hne := by
    rcases List.mem_append.mp hv with hv | hv
    · exact h.done v hv (by simp)
    · exact absurd (congrArg some (List.mem_singleton.mp hv)) hne
  todo v hv hn := h.todo v hv (fun hs => hn (List.mem_append_left _ hs))
  order l₁ v l₂ he u hu huv := by
    rcases List.eq_nil_or_concat l₂ with rfl | ⟨l₂', z, rfl⟩
    · obtain ⟨hs, hvc⟩ := List.append_inj' he rfl
      obtain rfl : c = v := by simpa using hvc
      have hc : c ∈ V := h.mem c (by simp)
      have hzero : inDegree V succ c = 0 := (h.counts c hc).symm.trans ((h.zero c hc).mpr (by simp))
      by_contra hn
      have hsucc := h.todo u hu (fun hs' => hn (hs ▸ hs'))
      exact inDegree_eq_zero.mp hzero u hu (hsucc ▸ huv)
    · have he' : sorted ++ [c] = (l₁ ++ v :: l₂') ++ [z] := by simpa using he
      exact h.order l₁ v l₂' (List.append_inj' he' rfl).1 u hu huv

lemma Inv.count_pos {c m : α} (h : Inv V succ₀ succ count (some c) queue sorted)
    (hc : c ∈ sorted) (hm : m ∈ succ c) : 0 < count m := by
  have hcV := h.mem c (List.mem_append_left _ hc)
  rw [h.counts m (h.closed c hcV m hm)]
  exact inDegree_pos.mpr ⟨c, hcV, hm⟩

lemma Inv.cut {c m : α} {rest : List α} (hV : V.Nodup)
    (h : Inv V succ₀ succ count (some c) queue sorted) (hc : c ∈ sorted) (hs : succ c = m :: rest) :
    Inv V succ₀ (Function.update succ c rest) (Function.update count m (count m - 1)) (some c)
      (if count m - 1 = 0 then queue ++ [m] else queue) sorted := by
  have hcV := h.mem c (List.mem_append_left _ hc)
  have hm : m ∈ V := h.closed c hcV m (by simp [hs])
  have hpos := h.count_pos hc (m := m) (by simp [hs])
  have hnew : m ∉ sorted ++ queue := fun hq => by
    have := (h.zero m hm).mpr hq
    omega
  have hcounts : ∀ v ∈ V, Function.update count m (count m - 1) v =
      inDegree V (Function.update succ c rest) v := by
    intro v hv
    have hd := inDegree_update hV hcV succ rest v
    have hcv := h.counts v hv
    by_cases hvm : v = m
    · subst hvm
      rw [hs, List.count_cons_self] at hd
      rw [Function.update_self]
      omega
    · rw [hs, List.count_cons_of_ne (Ne.symm hvm)] at hd
      rw [Function.update_of_ne hvm]
      omega
  refine ⟨?_, ?_, ?_, hcounts, ?_, ?_, ?_, h.order⟩
  · split_ifs
    · rw [← List.append_assoc, List.nodup_append]
      refine ⟨h.nodup, by simp, ?_⟩
      intro a ha b hb
      obtain rfl := List.mem_singleton.mp hb
      exact fun he => hnew (he ▸ ha)
    · exact h.nodup
  · intro v hv
    split_ifs at hv
    · rw [← List.append_assoc, List.mem_append, List.mem_singleton] at hv
      rcases hv with hv | rfl
      · exact h.mem v hv
      · exact hm
    · exact h.mem v hv
  · intro u hu v hv
    by_cases huc : u = c
    · subst huc
      rw [Function.update_self] at hv
      exact h.closed u hu v (by simp [hs, hv])
    · rw [Function.update_of_ne huc] at hv
      exact h.closed u hu v hv
  · intro v hv
    by_cases hvm : v = m
    · subst hvm
      rw [Function.update_self]
      split_ifs with hz
      · simp [hz]
      · simp only [hz, false_iff]
        exact hnew
    · rw [Function.update_of_ne hvm, h.zero v hv]
      split_ifs
      · simp [hvm]
      · rfl
  · intro v hv hne
    have hvc : v ≠ c := fun he => hne (congrArg some he)
    rw [Function.update_of_ne hvc]
    exact h.done v hv hne
  · intro v hv hn
    rw [Function.update_of_ne (ne_of_mem_of_not_mem hc hn).symm]
    exact h.todo v hv hn

lemma Inv.finish {c : α} (h : Inv V succ₀ succ count (some c) queue sorted) (hs : succ c = []) :
    Inv V succ₀ succ count none queue sorted where
  nodup := h.nodup
  mem := h.mem
  closed := h.closed
  counts := h.counts
  zero := h.zero
  todo := h.todo
  order := h.order
  done v hv _ := by
    by_cases hvc : v = c
    · rw [hvc, hs]
    · exact h.done v hv (by simp [hvc])

/-! The result, once the queue is empty. -/

variable (h : Inv V succ₀ succ count none [] sorted)
include h

lemma Inv.pred_mem {u v : α} (hv : v ∈ sorted) (he : Edge V succ₀ u v) : u ∈ sorted := by
  obtain ⟨l₁, l₂, hl⟩ := List.append_of_mem hv
  rw [hl]
  exact List.mem_append_left _ (h.order l₁ v l₂ hl u he.1 he.2)

lemma Inv.idxOf_lt {u v : α} (hv : v ∈ sorted) (he : Edge V succ₀ u v) :
    sorted.idxOf u < sorted.idxOf v := by
  obtain ⟨l₁, l₂, hl⟩ := List.append_of_mem hv
  have hu := h.order l₁ v l₂ hl u he.1 he.2
  have hn : v ∉ l₁ := by
    have hd : sorted.Nodup := by simpa using h.nodup
    rw [hl, List.nodup_append] at hd
    exact fun hv' => hd.2.2 v hv' v (by simp) rfl
  rw [hl, List.idxOf_append_of_mem hu, List.idxOf_append_of_notMem hn]
  exact (List.idxOf_lt_length_of_mem hu).trans_le (Nat.le_add_right _ _)

lemma Inv.not_behindCycle {v : α} (hv : v ∈ sorted) : ¬ BehindCycle (Edge V succ₀) v := by
  rintro ⟨c, hc, hcv⟩
  have hmem : ∀ u w, ReflTransGen (Edge V succ₀) u w → w ∈ sorted → u ∈ sorted := by
    intro u w huw
    induction huw with
    | refl => exact id
    | tail _ he ih => exact fun hw => ih (h.pred_mem hw he)
  have hless : ∀ u w, TransGen (Edge V succ₀) u w → w ∈ sorted →
      sorted.idxOf u < sorted.idxOf w := by
    intro u w huw
    induction huw with
    | single he => exact fun hw => h.idxOf_lt hw he
    | tail _ he ih => exact fun hw => (ih (h.pred_mem hw he)).trans (h.idxOf_lt hw he)
  exact absurd (hless c c hc (hmem c v hcv hv)) (lt_irrefl _)

lemma Inv.behindCycle {v : α} (hvV : v ∈ V) (hv : v ∉ sorted) : BehindCycle (Edge V succ₀) v := by
  refine behindCycle_of_predecessors (V := V) (S := {v | v ∈ V ∧ v ∉ sorted})
    (fun _ hw => hw.1) ?_ ⟨hvV, hv⟩
  rintro w ⟨hw, hws⟩
  have hpos : 0 < inDegree V succ w := by
    rw [← h.counts w hw]
    have := h.zero w hw
    simp only [List.append_nil, hws, iff_false] at this
    omega
  obtain ⟨u, hu, huw⟩ := inDegree_pos.mp hpos
  have hus : u ∉ sorted := fun hs => by simp [h.done u hs] at huw
  exact ⟨u, ⟨hu, hus⟩, hu, h.todo u hu hus ▸ huw⟩

lemma Inv.mem_sorted_iff {v : α} : v ∈ sorted ↔ v ∈ V ∧ ¬ BehindCycle (Edge V succ₀) v := by
  constructor
  · intro hv
    exact ⟨h.mem v (by simpa using hv), h.not_behindCycle hv⟩
  · rintro ⟨hvV, hv⟩
    by_contra hs
    exact hv (h.behindCycle hvV hs)

lemma Inv.length_eq_iff (hV : V.Nodup) (hc : Closed V succ₀) :
    sorted.length = V.length ↔ Acyclic (Edge V succ₀) := by
  have hnodup : sorted.Nodup := by simpa using h.nodup
  have hsub : sorted ⊆ V := fun v hv => h.mem v (by simpa using hv)
  have hperm : sorted.length = V.length ↔ ∀ v ∈ V, v ∈ sorted := by
    constructor
    · intro he v hv
      exact ((List.subperm_of_subset hnodup hsub).perm_of_length_le he.ge).mem_iff.mpr hv
    · intro hall
      exact ((List.perm_ext_iff_of_nodup hnodup hV).mpr (fun v => ⟨@hsub v, hall v⟩)).length_eq
  rw [hperm, acyclic_iff_behind]
  constructor
  · rintro hall v ⟨c, hcc, hcv⟩
    exact h.not_behindCycle (hall c (transGen_mem hc hcc).1) ⟨c, hcc, .refl⟩
  · intro hno v hv
    exact h.mem_sorted_iff.mpr ⟨hv, hno v⟩

end DagScheduler.Library.Kahn

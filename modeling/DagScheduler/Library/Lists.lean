import Mathlib.Data.List.Forall2
import Mathlib.Data.Set.Function
import Mathlib.Tactic

/-! Lists that are related place by place, and lists that are images of each other. -/

namespace DagScheduler.Library.Lists

variable {α β : Type}

lemma exists_of_forall₂ {R : α → β → Prop} {as : List α} {bs : List β} (hR : List.Forall₂ R as bs) :
    (∀ a ∈ as, ∃ b ∈ bs, R a b) ∧ ∀ b ∈ bs, ∃ a ∈ as, R a b := by
  induction hR with
  | nil => simp
  | @cons a b as bs hab _ ih =>
    simp only [List.forall_mem_cons]
    refine ⟨⟨⟨b, by simp, hab⟩, fun a' ha' => ?_⟩, ⟨a, by simp, hab⟩, fun b' hb' => ?_⟩
    · obtain ⟨b', hb', hR'⟩ := ih.1 a' ha'
      exact ⟨b', List.mem_cons_of_mem _ hb', hR'⟩
    · obtain ⟨a', ha', hR'⟩ := ih.2 b' hb'
      exact ⟨a', List.mem_cons_of_mem _ ha', hR'⟩

lemma map_eq_of_forall₂ {γ : Type} {R : α → β → Prop} {f : α → γ} {g : β → γ} {as : List α} {bs : List β}
    (h : List.Forall₂ R as bs) (hR : ∀ a b, R a b → f a = g b) : as.map f = bs.map g := by
  induction h with
  | nil => rfl
  | cons hab _ ih => rw [List.map_cons, List.map_cons, hR _ _ hab, ih]

lemma product_map {γ : Type} (f : α → γ) (as bs : List α) :
    (as.map f).product (bs.map f) = (as.product bs).map fun q => (f q.1, f q.2) := by
  simp only [List.product, List.flatMap_map, List.map_flatMap, List.map_map]
  rfl

lemma map_injOn {f : α → β} {S : Set α} (hf : Set.InjOn f S) {xs ys : List α} (hxs : ∀ x ∈ xs, x ∈ S)
    (hys : ∀ y ∈ ys, y ∈ S) (h : xs.map f = ys.map f) : xs = ys := by
  induction xs generalizing ys with
  | nil => simpa using h.symm
  | cons x xs ih =>
    cases ys with
    | nil => simp at h
    | cons y ys =>
      obtain ⟨hxy, hrest⟩ := List.cons.inj h
      obtain ⟨hx, hxs⟩ := List.forall_mem_cons.mp hxs
      obtain ⟨hy, hys⟩ := List.forall_mem_cons.mp hys
      rw [hf hx hy hxy, ih hxs hys hrest]

lemma isPrefix_map_iff {f : α → β} {S : Set α} (hf : Set.InjOn f S) {xs ys : List α}
    (hxs : ∀ x ∈ xs, x ∈ S) (hys : ∀ y ∈ ys, y ∈ S) : xs.map f <+: ys.map f ↔ xs <+: ys := by
  refine ⟨fun h => ?_, fun h => h.map f⟩
  rw [List.prefix_iff_eq_take, ← List.map_take] at h
  rw [map_injOn hf hxs (fun y hy => hys y (List.mem_of_mem_take hy)) h]
  exact List.take_prefix _ ys

lemma exists_map_eq [DecidableEq α] [Inhabited β] {as : List α} {bs : List β} (hn : as.Nodup)
    (hlen : as.length = bs.length) : ∃ φ : α → β, as.map φ = bs := by
  refine ⟨fun a => bs.getD (as.idxOf a) default, List.ext_getElem (by simpa using hlen) fun i hi hi' => ?_⟩
  have hia : i < as.length := by simpa using hi
  simp [hn.idxOf_getElem i hia, hi']

end DagScheduler.Library.Lists

import DagScheduler.Library.Digraphs

/-! Graphs that get further edges: what a vertex reaches then, and when an edge closes a cycle. -/

namespace DagScheduler.Library.Digraphs

open Relation

variable {α : Type} {E : α → α → Prop} {ps qs : List (α × α)} {a b u v : α}

def withEdges (E : α → α → Prop) (ps : List (α × α)) (u v : α) : Prop := E u v ∨ (u, v) ∈ ps

/-- The edge from the first to the second would close a cycle: there is a path back. -/
def Closes (E : α → α → Prop) (p : α × α) : Prop := ReflTransGen E p.2 p.1

@[simp] lemma withEdges_nil : withEdges E [] = E := by
  funext u v
  simp [withEdges]

lemma withEdges_withEdges : withEdges (withEdges E ps) qs = withEdges E (ps ++ qs) := by
  funext u v
  simp [withEdges, or_assoc]

lemma reach_withEdges (h : ReflTransGen E u v) : ReflTransGen (withEdges E ps) u v :=
  ReflTransGen.mono (fun _ _ huv => Or.inl huv) u v h

lemma transGen_withEdge (h : TransGen (withEdges E [(a, b)]) u v) :
    TransGen E u v ∨ (ReflTransGen E u a ∧ ReflTransGen E b v) := by
  induction h with
  | single he =>
    rcases he with he | he
    · exact .inl (.single he)
    · obtain ⟨rfl, rfl⟩ := Prod.mk.inj (List.mem_singleton.mp he)
      exact .inr ⟨.refl, .refl⟩
  | tail _ he ih =>
    rcases he with he | he
    · rcases ih with ih | ⟨hua, hbw⟩
      · exact .inl (ih.tail he)
      · exact .inr ⟨hua, hbw.tail he⟩
    · obtain ⟨rfl, rfl⟩ := Prod.mk.inj (List.mem_singleton.mp he)
      rcases ih with ih | ⟨hua, -⟩
      · exact .inr ⟨ih.to_reflTransGen, .refl⟩
      · exact .inr ⟨hua, .refl⟩

lemma Acyclic.withEdge_iff (h : Acyclic E) : Acyclic (withEdges E [(a, b)]) ↔ ¬ Closes E (a, b) := by
  constructor
  · intro hac hba
    exact hac a (TransGen.head' (.inr (List.mem_singleton.mpr rfl)) (reach_withEdges hba))
  · intro hno v hv
    rcases transGen_withEdge hv with hv | ⟨hva, hbv⟩
    · exact h v hv
    · exact hno (hbv.trans hva)

/-- A path that is new leads to the start of a new edge over old ones. -/
lemma reach_of_withEdges (h : ReflTransGen (withEdges E ps) u v) :
    ReflTransGen E u v ∨ ∃ p ∈ ps, ReflTransGen E u p.1 := by
  induction h using ReflTransGen.head_induction_on with
  | refl => exact .inl .refl
  | @head x y he _ ih =>
    rcases he with he | he
    · rcases ih with ih | ⟨p, hp, hyp⟩
      · exact .inl (.head he ih)
      · exact .inr ⟨p, hp, .head he hyp⟩
    · exact .inr ⟨(x, y), he, .refl⟩

lemma first_unique {β : Type} {P : β → Prop} {pre pre' post post' : List β} {x x' : β}
    (h : pre ++ x :: post = pre' ++ x' :: post') (hx : P x) (hx' : P x') (hpre : ∀ y ∈ pre, ¬ P y)
    (hpre' : ∀ y ∈ pre', ¬ P y) : pre = pre' := by
  induction pre generalizing pre' with
  | nil =>
    cases pre' with
    | nil => rfl
    | cons z pre' =>
      obtain ⟨rfl, -⟩ := List.cons_eq_cons.mp h
      exact absurd hx (hpre' _ List.mem_cons_self)
  | cons y pre ih =>
    cases pre' with
    | nil =>
      obtain ⟨rfl, -⟩ := List.cons_eq_cons.mp h
      exact absurd hx' (hpre _ List.mem_cons_self)
    | cons z pre' =>
      obtain ⟨rfl, hrest⟩ := List.cons_eq_cons.mp h
      rw [ih hrest (fun w hw => hpre w (List.mem_cons_of_mem _ hw))
        (fun w hw => hpre' w (List.mem_cons_of_mem _ hw))]

/-! All edges from one list of vertices to another, row by row. -/

lemma mem_row {L L' : List α} {pre post : List (α × α)} (h : L.product L' = pre ++ (v, u) :: post)
    {p : α × α} (hp : p ∈ pre) : p.1 = v ∨ (p.1, u) ∈ pre := by
  have hu : u ∈ L' := by
    have hmem : (v, u) ∈ L.product L' := by simp [h]
    exact (List.mem_product.mp hmem).2
  induction L generalizing pre with
  | nil => exact absurd h.symm (List.append_ne_nil_of_right_ne_nil pre (List.cons_ne_nil _ _))
  | cons x L ih =>
    change L'.map (fun w => (x, w)) ++ L.product L' = _ at h
    rcases List.append_eq_append_iff.mp h with ⟨pre', rfl, hrest⟩ | ⟨row, hrow, hpost⟩
    · rcases List.mem_append.mp hp with hp | hp
      · obtain ⟨w, -, rfl⟩ := List.mem_map.mp hp
        exact .inr (List.mem_append_left _ (List.mem_map_of_mem hu))
      · rcases ih hrest hp with hv | hm
        · exact .inl hv
        · exact .inr (List.mem_append_right _ hm)
    · have hx : ∀ q ∈ pre ++ row, q.1 = x := by
        rw [← hrow]
        rintro q hq
        obtain ⟨w, -, rfl⟩ := List.mem_map.mp hq
        rfl
      have hpx := hx p (List.mem_append_left _ hp)
      cases row with
      | nil =>
        rw [List.append_nil] at hrow
        exact .inr (hpx ▸ hrow ▸ List.mem_map_of_mem hu)
      | cons q row =>
        obtain ⟨rfl, -⟩ := List.cons_eq_cons.mp hpost
        exact .inl (hpx.trans (hx (v, u) (by simp)).symm)

/-- Among the pairs before it that close no cycle, a pair finds the paths of the first graph. -/
lemma closes_row {L L' : List α} {pre post : List (α × α)} {p : α × α} (h : L.product L' = pre ++ p :: post)
    (hpre : ∀ q ∈ pre, ¬ Closes E q) : Closes (withEdges E pre) p ↔ Closes E p := by
  refine ⟨fun hc => ?_, reach_withEdges⟩
  rcases reach_of_withEdges hc with hc | ⟨q, hq, hpq⟩
  · exact hc
  · rcases mem_row h hq with hv | hm
    · rw [hv] at hpq
      exact hpq
    · exact absurd hpq (hpre _ hm)

end DagScheduler.Library.Digraphs

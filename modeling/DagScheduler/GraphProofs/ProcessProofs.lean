import DagScheduler.GraphProofs.InvariantProofs
import DagScheduler.Library.Layers

/-! The batches of `process_dag` are the layers of the graph. Each round takes the vertices without
incoming edges off a clone. -/

namespace DagScheduler.Graphs

open Library Library.Programs Library.Digraphs Library.Layers

variable {σ π : Type} {m m' m₀ : Memory σ π} {g g' : DAG}
  {V batch : List Addr} {succ : Addr → List Addr} {k : ℕ} {a : Addr}

structure RoundInv (V : List Addr) (succ : Addr → List Addr) (m₀ : Memory σ π) (k : ℕ) (g : DAG)
    (m : Memory σ π) : Prop where
  graph : g.graph = remaining V succ k
  sound : g.Sound m
  targets : ∀ a ∈ g.graph, m.targets a = succ a
  core : ∀ a ∈ g.graph, (m.vertex a).map DAGVertex.core = (m₀.vertex a).map DAGVertex.core
  dead : ∀ a ∈ V, a ∉ g.graph → m.vertices.cell a = none
  outside : ∀ a, a ∉ V → m.vertices.cell a = m₀.vertices.cell a
  next : m.vertices.next = m₀.vertices.next
  wrapped : m.wrapped = m₀.wrapped

namespace RoundInv

lemma subset (h : RoundInv V succ m₀ k g m) (ha : a ∈ g.graph) : a ∈ V := by
  rw [h.graph] at ha
  exact ((mem_remaining V succ).mp ha).1

lemma sources (h : RoundInv V succ m₀ k g m) :
    g.graph.filter (fun a => m.count a = 0) = layer V succ k := by
  rw [← filter_sources, ← h.graph]
  apply List.filter_congr
  intro a ha
  rw [decide_eq_decide, h.sound.counted a ha, inDegree_eq_zero]
  exact forall₂_congr (fun u hu => by rw [h.targets u hu])

lemma layer_sublist (h : RoundInv V succ m₀ k g m) : (layer V succ k).Sublist g.graph := by
  rw [← h.sources]
  exact List.filter_sublist

lemma not_mem_layer {u v : Addr} (hu : u ∈ remaining V succ k) (huv : v ∈ succ u) :
    v ∉ layer V succ k := by
  intro hv
  rw [mem_remaining] at hu
  rw [mem_layer, longestIncoming_iff] at hv
  exact hv.2.2 (hasWalk_succ.mpr ⟨u, hu.2, hu.1, huv⟩)

lemma remove (h : RoundInv V succ m₀ k g m) (hr : Removal g m (layer V succ k) m') :
    RoundInv V succ m₀ (k + 1) { g with graph := g.graph.filter fun a => !decide (a ∈ layer V succ k) } m' := by
  have hlayer : g.graph.filter (fun a => decide (a ∈ layer V succ k)) = layer V succ k := by
    rw [← h.sources]
    apply List.filter_congr
    intro a ha
    simp [ha]
  have hkept : ∀ a ∈ g.graph.filter (fun a => !decide (a ∈ layer V succ k)),
      a ∈ g.graph ∧ a ∉ layer V succ k := by
    intro a ha
    obtain ⟨hag, hal⟩ := List.mem_filter.mp ha
    exact ⟨hag, by simpa using hal⟩
  have hnot : ∀ a, a ∉ g.graph → ∀ r ∈ layer V succ k, a ∉ m.targets r := fun a ha r hrl har =>
    ha (h.sound.closed r (h.layer_sublist.subset hrl) a har)
  obtain ⟨hs, hw⟩ := h.sound.removal (p := fun a => decide (a ∈ layer V succ k)) (hlayer.symm ▸ hr)
  refine ⟨?_, hs, ?_, ?_, ?_, ?_, hr.next.trans h.next, hw.trans h.wrapped⟩
  · rw [← filter_not_layer, ← h.graph]
    simp
  · intro a ha
    obtain ⟨hag, hal⟩ := hkept a ha
    rw [hr.targets hal, h.targets a hag, List.filter_eq_self]
    intro c hc
    simpa using not_mem_layer (h.graph ▸ hag) hc
  · intro a ha
    obtain ⟨hag, hal⟩ := hkept a ha
    exact (hr.core a hal).trans (h.core a hag)
  · intro a haV ha
    by_cases hal : a ∈ layer V succ k
    · exact hr.dead a hal
    · have hag : a ∉ g.graph := fun hag => ha (List.mem_filter.mpr ⟨hag, by simp [hal]⟩)
      rw [hr.cell a hal (hnot a hag)]
      exact h.dead a haV hag
  · intro a ha
    have hag : a ∉ g.graph := fun hag => ha (h.subset hag)
    rw [hr.cell a (fun hal => hag (h.layer_sublist.subset hal)) (hnot a hag)]
    exact h.outside a ha

end RoundInv

variable [TaskStage σ] [TaskCallbackPlugin π]

lemma takeBatch_returns (hg : g.Sound m) (hsub : batch.Sublist g.graph) :
    ∃ clones g' m', Returns (batch.foldlM (takeVertex false) (g, [])) (m.retain batch) (g', clones) m' ∧
      DAG.TakeInv g m batch [] g' m' ∧ List.Forall₂ (CloneOf m) batch clones := by
  have hnodup : batch.Nodup := hg.nodup.sublist hsub
  let I : List Addr → DAG × List (DAGVertex σ π) → Memory σ π → Prop := fun rest s m' =>
    ∃ gone, batch = gone ++ rest ∧ DAG.TakeInv g m gone rest s.1 m' ∧ List.Forall₂ (CloneOf m) gone s.2
  have hstart : I batch (g, []) (m.retain batch) :=
    ⟨[], rfl, .start (fun a ha => hg.live (hsub.subset ha)) hnodup, .nil⟩
  have hstep : ∀ x xs s m', I (x :: xs) s m' → ∃ s' m'', Returns (takeVertex false s x) m' s' m'' ∧
      I xs s' m'' := by
    rintro x xs ⟨g', clones⟩ m' ⟨gone, hgone, h, hall⟩
    have hx : x ∈ g.graph := hsub.subset (by simp [hgone])
    have hd := hgone ▸ hnodup
    have hheld : 0 < m.vertices.owners x := by
      rw [hg.sole x hx]
      exact Nat.one_pos
    obtain ⟨g'', m'', hr, h'⟩ := h.step hg.owned hg.uuids hheld hx
      (fun hxg => (List.nodup_append.mp hd).2.2 x hxg x List.mem_cons_self rfl)
      (List.nodup_cons.mp (List.nodup_append.mp hd).2.1).1
    obtain ⟨w, hw⟩ := Memory.live_iff.mp ((h.detached.live x).mpr (hg.live hx))
    refine ⟨(g'', clones ++ [w.clone]), m'', ?_, gone ++ [x], by simp [hgone], h', ?_⟩
    · simp only [takeVertex, returns_bind, returns_deref, Bool.false_eq_true, if_false, returns_cppAssert,
        returns_pure]
      exact ⟨w, m', ⟨hw, rfl⟩, (true, g''), m'', hr, (), m'', ⟨rfl, rfl⟩, rfl, rfl⟩
    · have hclone : CloneOf m x w.clone := CloneOf.of_core (h.detached.core x) ⟨w, hw, rfl⟩
      exact List.rel_append hall (.cons hclone .nil)
  obtain ⟨⟨g', clones⟩, m', hr, gone, hgone, h, hall⟩ := foldlM_returns I hstep hstart
  rw [List.append_nil] at hgone
  subst hgone
  exact ⟨clones, g', m', hr, h, hall⟩

lemma processLoop_returns (hac : Acyclic (Edge V succ)) (fuel : ℕ) :
    ∀ {k : ℕ} {g : DAG} {m : Memory σ π} (out : Batches σ π) (queue : TaskQueue σ π),
      RoundInv V succ m₀ k g m → (remaining V succ k).length ≤ fuel →
      ∃ n bs g' m', Returns (processLoop false fuel g (layer V succ k) out queue) m
          (g', out ++ bs.map (List.map DAGVertex.clone), queue ++ bs.flatten.map DAGVertex.task) m' ∧
        List.Forall₂ (List.Forall₂ (CloneOf m₀)) ((List.range' k n).map (layer V succ)) bs ∧
        remaining V succ (k + n) = [] ∧ RoundInv V succ m₀ (k + n) g' m' := by
  induction fuel with
  | zero =>
    intro k g m out queue h hfuel
    have hnil : remaining V succ k = [] := List.eq_nil_of_length_eq_zero (Nat.le_zero.mp hfuel)
    refine ⟨0, [], g, m, ?_, .nil, hnil, h⟩
    rw [layer_nil hnil (le_refl k)]
    simp [processLoop]
  | succ fuel ih =>
    intro k g m out queue h hfuel
    cases hl : layer V succ k with
    | nil =>
      have hnil : remaining V succ k = [] := by
        by_contra hne
        exact layer_ne_nil hac hne hl
      refine ⟨0, [], g, m, ?_, .nil, hnil, h⟩
      simp [processLoop]
    | cons v vs =>
      have hne : remaining V succ k ≠ [] := by
        intro hnil
        rw [layer_nil hnil (le_refl k)] at hl
        exact List.cons_ne_nil _ _ hl.symm
      obtain ⟨clones, g₁, m₁, hr, ht, hall⟩ := takeBatch_returns h.sound h.layer_sublist
      have hremoval := ht.finish (h.sound.nodup.sublist h.layer_sublist)
        (fun a ha => h.sound.sole a (h.layer_sublist.subset ha))
      have h₁ := h.remove hremoval
      rw [← ht.graph] at h₁
      have hlt := remaining_length_lt hac hne
      obtain ⟨n, bs, g', m', hr', hall', hnil, h'⟩ := ih (out ++ [clones.map DAGVertex.clone])
        (queue ++ clones.map DAGVertex.task) h₁ (by omega)
      have hcurr : Returns (dagVerticesWithNoIncommingEdges g₁) (m₁.release (layer V succ k))
          (layer V succ (k + 1)) (m₁.release (layer V succ k)) := by
        rw [← h₁.sources]
        exact withoutIncommingEdges_returns h₁.sound.owned.live
      rw [hl] at hr hcurr hr'
      refine ⟨n + 1, clones :: bs, g', m', ?_, ?_, ?_, ?_⟩
      · simp only [processLoop, returns_bind, returns_modify]
        refine ⟨(), _, rfl, (g₁, clones), m₁, hr, (), _, rfl, _, _, hcurr, ?_⟩
        simpa using hr'
      · have hclones : List.Forall₂ (CloneOf m₀) (layer V succ k) clones := by
          refine List.forall₂_iff_zip.mpr ⟨hall.length_eq, fun hz => ?_⟩
          have hmem := (List.of_mem_zip hz).1
          exact ((List.forall₂_iff_zip.mp hall).2 hz).of_core (h.core _ (h.layer_sublist.subset hmem))
        rw [List.range'_succ, List.map_cons]
        exact .cons hclones hall'
      · rw [← hnil]
        congr 1
        omega
      · have hk : k + (n + 1) = k + 1 + n := by omega
        rw [hk]
        exact h'

/-! The two clones, the sort of the second and the loop over the first. -/

structure Prepared (g : DAG) (m : Memory σ π) (φ : Addr → Addr) (gClone gCheck : DAG)
    (m₁ m₃ : Memory σ π) : Prop where
  clone : DAG.IsClone g m φ gClone m₁
  check : ∃ ψ m₂, DAG.IsClone g m₁ ψ gCheck m₂ ∧ Frame (· ∈ gCheck.graph) m₂ m₃ ∧ m₃.wrapped = m₂.wrapped

namespace Prepared

variable {φ : Addr → Addr} {gClone gCheck : DAG} {m₁ m₃ m₄ : Memory σ π}

lemma kept (h : Prepared g m φ gClone gCheck m₁ m₃) : Kept m₁ m₃ := by
  obtain ⟨ψ, m₂, hk, hf, hw⟩ := h.check
  refine ⟨fun a ha => ?_, hk.copied.next.trans hf.next.ge, hw.trans hk.wrapped⟩
  have hn : a ∉ gCheck.graph := by
    rw [hk.graph]
    intro hm
    obtain ⟨b, hb, rfl⟩ := List.mem_map.mp hm
    exact absurd ha (Nat.not_lt.mpr (hk.copied.fresh b hb))
  rw [hf.cell a hn, hk.copied.old a ha]

lemma untouched (h : Prepared g m φ gClone gCheck m₁ m₃) (m₄ : Memory σ π)
    (hdead : ∀ a ∈ gClone.graph, m₄.vertices.cell a = none)
    (houtside : ∀ a, a ∉ gClone.graph → m₄.vertices.cell a = m₃.vertices.cell a)
    (hnext : m₄.vertices.next = m₃.vertices.next) (hwrapped : m₄.wrapped = m₃.wrapped) :
    Untouched m (m₄.release gCheck.graph) := by
  have hkept := h.kept
  obtain ⟨ψ, m₂, hk, hf, hw⟩ := h.check
  have hfresh : ∀ a ∈ gCheck.graph, m₁.vertices.next ≤ a ∧ m₃.vertices.owners a = 1 := by
    intro a ha
    rw [hk.graph] at ha
    obtain ⟨b, hb, rfl⟩ := List.mem_map.mp ha
    exact ⟨hk.copied.fresh b hb, (hf.owners _).trans (hk.copied.owners b hb)⟩
  have hclone : ∀ a ∈ gClone.graph, m.vertices.next ≤ a ∧ a < m₁.vertices.next := by
    intro a ha
    refine ⟨?_, h.clone.base.lt ha⟩
    rw [h.clone.graph] at ha
    obtain ⟨b, hb, rfl⟩ := List.mem_map.mp ha
    exact h.clone.copied.fresh b hb
  have hnodup : gCheck.graph.Nodup := hk.wellFormed.nodup
  have hle := h.clone.copied.next
  refine ⟨fun a => ?_, ?_, ?_⟩
  · by_cases hac : a ∈ gCheck.graph
    · obtain ⟨hge, hown⟩ := hfresh a hac
      have hnc : a ∉ gClone.graph := fun hin => absurd (hclone a hin).2 (Nat.not_lt.mpr hge)
      have hown₄ : m₄.vertices.owners a = 1 := (SharedHeap.owners_of_cell_eq (houtside a hnc)).trans hown
      rw [m.vertices.unused a (hle.trans hge)]
      exact m₄.vertices.cell_releaseAll_last hnodup hac hown₄.le
    · have hrel : (m₄.release gCheck.graph).vertices.cell a = m₄.vertices.cell a :=
        m₄.vertices.cell_releaseAll_of_notMem hac
      rw [hrel]
      by_cases hnc : a ∈ gClone.graph
      · rw [hdead a hnc, m.vertices.unused a (hclone a hnc).1]
      · rw [houtside a hnc]
        by_cases hlt : a < m₁.vertices.next
        · rw [hkept.cell a hlt]
          by_cases hlt' : a < m.vertices.next
          · exact h.clone.copied.old a hlt'
          · rw [h.clone.copied.rest a (Nat.le_of_not_lt hlt') (h.clone.graph ▸ hnc),
              m.vertices.unused a (Nat.le_of_not_lt hlt')]
        · rw [hf.cell a hac, hk.copied.rest a (Nat.le_of_not_lt hlt) (hk.graph ▸ hac),
            m.vertices.unused a (hle.trans (Nat.le_of_not_lt hlt))]
  · have hrel : (m₄.release gCheck.graph).vertices.next = m₄.vertices.next :=
      m₄.vertices.next_releaseAll _
    rw [hrel, hnext]
    exact hle.trans hkept.next
  · exact hwrapped.trans (hkept.wrapped.trans h.clone.wrapped)

lemma roundInv (h : Prepared g m φ gClone gCheck m₁ m₃) :
    RoundInv gClone.graph m₁.targets m₃ 0 gClone m₃ := by
  have hs := h.clone.wellFormed.sound h.clone.base
  have he : Evolves gClone.graph m₁ m₃ := .of_kept h.kept (fun a ha => hs.lt ha)
  have hcell : ∀ a ∈ gClone.graph, m₃.vertices.cell a = m₁.vertices.cell a := fun a ha =>
    h.kept.cell a (hs.lt ha)
  exact ⟨(remaining_zero _ _).symm, hs.of_cells he hcell,
    fun a ha => DAG.targets_of_cells hs.toBase hs.closed he hcell ha, fun _ _ => rfl,
    fun a ha hn => absurd ha hn, fun _ _ => rfl, rfl, rfl⟩

lemma acyclic (h : Prepared g m φ gClone gCheck m₁ m₃) (hg : g.Clonable m) (hac : g.Acyclic m) :
    Digraphs.Acyclic (Edge gClone.graph m₁.targets) := by
  rw [← DAG.connected_eq h.clone.wellFormed.inside.closed]
  apply h.clone.acyclic.mpr
  rw [DAG.Acyclic, DAG.connected_eq hg.inside.closed] at hac
  exact hac.mono fun u v huv => ⟨huv.1, hg.resolved huv.1 ▸ huv.2⟩

lemma first (h : Prepared g m φ gClone gCheck m₁ m₃) :
    Returns (dagVerticesWithNoIncommingEdges gClone) m₃ (layer gClone.graph m₁.targets 0) m₃ := by
  rw [← h.roundInv.sources]
  exact withoutIncommingEdges_returns h.roundInv.sound.owned.live

end Prepared

def BatchClone (m : Memory σ π) (a : Addr) (v : DAGVertex σ π) : Prop :=
  ∃ w, m.vertex a = some w ∧ v = w.clone.clone.clone

lemma prepare_returns (hg : g.Clonable m) :
    ∃ gClone m₁ gCheck m₂ cyclic check m₃, Returns g.clone m gClone m₁ ∧ Returns g.clone m₁ gCheck m₂ ∧
      Returns (dagTopologicalSort gCheck) m₂ (cyclic, check) m₃ ∧
      Prepared g m (g.copyAt m) gClone gCheck m₁ m₃ ∧
      (cyclic = false ↔ g.Acyclic m) ∧ (cyclic = false → check.length = gClone.graph.length) := by
  obtain ⟨gClone, m₁, hr₁, h₁⟩ := DAG.clone_returns hg.toOwned hg.uuids hg.known hg.config hg.resolves
  have hg₁ := hg.kept h₁.kept
  obtain ⟨gCheck, m₂, hr₂, h₂⟩ := DAG.clone_returns hg₁.toOwned hg₁.uuids hg₁.known hg₁.config hg₁.resolves
  have hwf := h₂.wellFormed
  obtain ⟨L, check, m₃, hr₃, hf₃, hw₃, hk₃, hall⟩ :=
    dagTopologicalSort_returns hwf.toOwned hwf.inside hwf.counted
  have hlen : gCheck.graph.length = gClone.graph.length := by
    rw [h₁.graph, h₂.graph, List.length_map, List.length_map]
  refine ⟨gClone, m₁, gCheck, m₂, _, check, m₃, hr₁, hr₂, hr₃, ⟨h₁, _, m₂, h₂, hf₃, hw₃⟩, ?_, ?_⟩
  · have hres : Edge g.graph (g.resolved m₁) = Edge g.graph m.targets := by
      funext u v
      refine propext (and_congr_right (fun hu => ?_))
      rw [hg₁.resolved hu, hg.targets_kept h₁.kept hu]
    rw [bne_eq_false_iff_eq, hk₃.length_eq_iff hwf.nodup hwf.inside.closed,
      ← DAG.connected_eq hwf.inside.closed]
    exact h₂.acyclic.trans (by rw [hres, DAG.Acyclic, DAG.connected_eq hg.inside.closed])
  · intro hc
    rw [← hall.length_eq, ← hlen]
    simpa using hc

lemma Prepared.layer_eq {φ : Addr → Addr} {gClone gCheck : DAG} {m₁ m₃ : Memory σ π}
    (h : Prepared g m φ gClone gCheck m₁ m₃) (hg : g.Clonable m) (k : ℕ) :
    layer gClone.graph m₁.targets k = (layer g.graph m.targets k).map φ ∧
      remaining gClone.graph m₁.targets k = (remaining g.graph m.targets k).map φ := by
  have hsucc : ∀ u ∈ g.graph, ∀ y, y ∈ m₁.targets (φ u) ↔ ∃ v ∈ m.targets u, φ v = y := by
    intro u hu y
    rw [h.clone.mem_targets hu, hg.resolved hu]
  rw [h.clone.graph]
  exact ⟨layer_map hg.inside.closed h.clone.copied.injective hsucc k,
    remaining_map hg.inside.closed h.clone.copied.injective hsucc k⟩

lemma Prepared.batches {φ : Addr → Addr} {gClone gCheck : DAG} {m₁ m₃ : Memory σ π}
    (h : Prepared g m φ gClone gCheck m₁ m₃) (hg : g.Clonable m) {n : ℕ} {bs : Batches σ π}
    (hall : List.Forall₂ (List.Forall₂ (CloneOf m₃)) ((List.range' 0 n).map (layer gClone.graph m₁.targets)) bs) :
    List.Forall₂ (List.Forall₂ fun a v => ∃ w, m.vertex a = some w ∧ v = w.clone.clone)
      ((List.range n).map (layer g.graph m.targets)) bs := by
  rw [← List.range_eq_range', List.forall₂_map_left_iff] at hall
  rw [List.forall₂_map_left_iff]
  refine hall.imp (fun k b hb => ?_)
  rw [(h.layer_eq hg k).1, List.forall₂_map_left_iff] at hb
  refine List.forall₂_iff_zip.mpr ⟨hb.length_eq, fun {a v} hz => ?_⟩
  have ha : a ∈ g.graph := ((mem_layer _ _).mp (List.of_mem_zip hz).1).1
  obtain ⟨w, hw, rfl⟩ := (List.forall₂_iff_zip.mp hb).2 hz
  obtain ⟨w₀, hw₀⟩ := Memory.live_iff.mp (hg.live a ha)
  have hlt : φ a < m₁.vertices.next := h.clone.base.lt (h.clone.graph ▸ List.mem_map_of_mem ha)
  have hcore := h.clone.copied.copy a ha w₀ hw₀
  rw [← h.kept.vertex hlt, hw, Option.map_some, Option.some.injEq] at hcore
  exact ⟨w₀, hw₀, by rw [← clone_core w, hcore]⟩

lemma flatten_queue {bs : Batches σ π} :
    (bs.flatten.map DAGVertex.task).map (Option.map Task.uuid) =
      (bs.map (List.map DAGVertex.clone)).flatten.map fun v => v.task.map Task.uuid := by
  rw [← List.map_flatten, List.map_map, List.map_map]
  apply List.map_congr_left
  intro v _
  cases h : v.task <;> simp [DAGVertex.clone, h]

/-- `n` batches that are the layers of the graph by longest incoming paths, and the tasks in their
order. -/
structure Layering (g : DAG) (m : Memory σ π) (n : ℕ) (out : Batches σ π) (tasks : TaskQueue σ π) :
    Prop where
  batches : List.Forall₂ (List.Forall₂ (BatchClone m)) ((List.range n).map (layer g.graph m.targets)) out
  once : ((List.range n).map (layer g.graph m.targets)).flatten.Perm g.graph
  later : ∀ a b, g.Connected m a b → ∃ j < n, ∃ k < n, a ∈ layer g.graph m.targets j ∧
    b ∈ layer g.graph m.targets k ∧ j < k
  tasks_eq : tasks.map (Option.map Task.uuid) = out.flatten.map fun v => v.task.map Task.uuid
  tasks_isSome : (∀ a ∈ g.graph, ∀ v, m.vertex a = some v → v.task.isSome) → ∀ t ∈ tasks, t.isSome

lemma processDag_cyclic (hg : g.Clonable m) (hcyc : ¬ g.Acyclic m) (fuel : ℕ) (out : Batches σ π)
    (queue : TaskQueue σ π) :
    ∃ m', Returns (processDag false fuel g out queue) m (false, out, queue) m' ∧ Untouched m m' := by
  obtain ⟨gClone, m₁, gCheck, m₂, cyclic, check, m₃, hr₁, hr₂, hr₃, hp, hcyclic, hlen⟩ := prepare_returns hg
  obtain rfl : cyclic = true := by
    by_contra hc
    exact hcyc (hcyclic.mp (by simpa using hc))
  have hdestroy := hp.untouched (m₃.release gClone.graph) ?_ ?_ ?_ rfl
  · refine ⟨_, ?_, hdestroy⟩
    simp only [processDag, returns_bind]
    refine ⟨gClone, m₁, hr₁, gCheck, m₂, hr₂, (true, check), m₃, hr₃, ?_⟩
    simp [DAG.destroy]
  · exact fun a ha => m₃.vertices.cell_releaseAll_last hp.clone.wellFormed.nodup ha
      ((hp.roundInv.sound.sole a ha).le)
  · exact fun a ha => m₃.vertices.cell_releaseAll_of_notMem ha
  · exact m₃.vertices.next_releaseAll _

lemma processDag_batches (hg : g.Clonable m) (hacyclic : g.Acyclic m) {fuel : ℕ}
    (hfuel : g.graph.length ≤ fuel) (out : Batches σ π) (queue : TaskQueue σ π) :
    ∃ n bs m', Returns (processDag false fuel g out queue) m
        (true, bs.map (List.map DAGVertex.clone), queue ++ bs.flatten.map DAGVertex.task) m' ∧
      Untouched m m' ∧ remaining g.graph m.targets n = [] ∧
      List.Forall₂ (List.Forall₂ fun a v => ∃ w, m.vertex a = some w ∧ v = w.clone.clone)
        ((List.range n).map (layer g.graph m.targets)) bs := by
  obtain ⟨gClone, m₁, gCheck, m₂, cyclic, check, m₃, hr₁, hr₂, hr₃, hp, hcyclic, hlen⟩ := prepare_returns hg
  obtain rfl : cyclic = false := hcyclic.mpr hacyclic
  have hround := hp.roundInv
  have hac := hp.acyclic hg hacyclic
  have hrem : (remaining gClone.graph m₁.targets 0).length ≤ fuel := by
    rw [remaining_zero, hp.clone.graph, List.length_map]
    exact hfuel
  obtain ⟨n, bs, g', m₄, hr₄, hall, hnil, hend⟩ := processLoop_returns hac fuel [] queue hround hrem
  rw [Nat.zero_add] at hnil hend
  have hempty : g'.graph = [] := hend.graph.trans hnil
  have hdestroy := hp.untouched m₄ (fun a ha => hend.dead a ha (by simp [hempty])) hend.outside
    hend.next hend.wrapped
  refine ⟨n, bs, _, ?_, hdestroy, ?_, hp.batches hg hall⟩
  · simp only [processDag, returns_bind]
    refine ⟨gClone, m₁, hr₁, gCheck, m₂, hr₂, (false, check), m₃, hr₃, ?_⟩
    rw [if_pos (by simp [hlen rfl])]
    simp only [returns_bind, DAG.destroy, returns_modify, returns_pure]
    exact ⟨_, m₃, hp.first, _, m₄, hr₄, (), _, rfl, (), _, rfl, by simp, by rw [hempty]; rfl⟩
  · rw [(hp.layer_eq hg n).2] at hnil
    exact List.map_eq_nil_iff.mp hnil

lemma processDag_acyclic (hg : g.Clonable m) (hacyclic : g.Acyclic m) {fuel : ℕ}
    (hfuel : g.graph.length ≤ fuel) (out : Batches σ π) (queue : TaskQueue σ π) :
    ∃ n tasks out' m', Returns (processDag false fuel g out queue) m (true, out', queue ++ tasks) m' ∧
      Untouched m m' ∧ Layering g m n out' tasks := by
  obtain ⟨n, bs, m', hr, hm, hnil, hbs⟩ := processDag_batches hg hacyclic hfuel out queue
  refine ⟨n, bs.flatten.map DAGVertex.task, bs.map (List.map DAGVertex.clone), m', hr, hm,
    ?_, layers_perm hg.nodup hnil, ?_, flatten_queue, ?_⟩
  · refine (List.forall₂_map_right_iff).mpr (hbs.imp (fun l b hb => ?_))
    refine (List.forall₂_map_right_iff).mpr (hb.imp (fun a v hv => ?_))
    obtain ⟨w, hw, rfl⟩ := hv
    exact ⟨w, hw, rfl⟩
  · rintro a b ⟨ha, hb, hab⟩
    obtain ⟨j, hj, haj⟩ := exists_layer hnil ha
    obtain ⟨k, hk, hbk⟩ := exists_layer hnil hb
    exact ⟨j, hj, k, hk, haj, hbk,
      LongestIncoming.lt_of_edge ((mem_layer _ _).mp haj).2 ((mem_layer _ _).mp hbk).2 ⟨ha, hab⟩⟩
  · intro htask t ht
    obtain ⟨v, hv, rfl⟩ := List.mem_map.mp ht
    have hflat := List.rel_flatten hbs
    obtain ⟨i, hi, rfl⟩ := List.getElem_of_mem hv
    have hi' : i < ((List.range n).map (layer g.graph m.targets)).flatten.length := hflat.length_eq ▸ hi
    obtain ⟨w, hw, he⟩ := hflat.get hi' hi
    have ha := (layers_perm hg.nodup hnil).mem_iff.mp (List.getElem_mem hi')
    have hsome := htask _ ha w hw
    rw [List.get_eq_getElem] at he
    rw [he]
    simpa [DAGVertex.clone] using hsome

/-- `process_dag` computes the layering, and hands over the tasks in that order; a cyclic graph
leaves all outputs alone. -/
theorem processDag_layering (hg : g.Clonable m) {fuel : ℕ} (hfuel : g.graph.length ≤ fuel)
    (out : Batches σ π) (queue : TaskQueue σ π) :
    ∃ acyclic out' queue' m',
      Returns (processDag false fuel g out queue) m (acyclic, out', queue') m' ∧ Untouched m m' ∧
      (acyclic = true ↔ g.Acyclic m) ∧ (acyclic = false → out' = out ∧ queue' = queue) ∧
      (acyclic = true → ∃ n tasks, Layering g m n out' tasks ∧ queue' = queue ++ tasks) := by
  by_cases hacyclic : g.Acyclic m
  · obtain ⟨n, tasks, out', m', hr, hm, h⟩ := processDag_acyclic hg hacyclic hfuel out queue
    exact ⟨true, out', queue ++ tasks, m', hr, hm, by simpa using hacyclic, by simp,
      fun _ => ⟨n, tasks, h, rfl⟩⟩
  · obtain ⟨m', hr, hm⟩ := processDag_cyclic hg hacyclic fuel out queue
    exact ⟨false, out, queue, m', hr, hm, by simpa using hacyclic, fun _ => ⟨rfl, rfl⟩, by simp⟩

theorem processDag_layering_sample :
    ∃ acyclic out' queue' m',
      Returns (processDag false 2 Sample.dag [] []) Sample.memory (acyclic, out', queue') m' ∧
      Untouched Sample.memory m' ∧ (acyclic = true ↔ Sample.dag.Acyclic Sample.memory) ∧
      (acyclic = false → out' = [] ∧ queue' = []) ∧
      (acyclic = true → ∃ n tasks, Layering Sample.dag Sample.memory n out' tasks ∧
        queue' = [] ++ tasks) :=
  processDag_layering Sample.wellFormed.toClonable (le_refl 2) [] []

end DagScheduler.Graphs

import DagScheduler.GraphProofs.ProcessProofs
import DagScheduler.GraphProofs.QueryProofs

/-! What `process_dag` hands to the scheduler, read off the plan of the graph. -/

namespace DagScheduler.Graphs

open Library Library.Programs Library.Plans Library.Layers

variable {σ π : Type} [TaskStage σ] [TaskCallbackPlugin π] {m m' : Memory σ π} {g g' : DAG} {fuel : ℕ}
  {out out' : Batches σ π} {queue queue' : TaskQueue σ π}

/-! No batch is empty. -/

lemma takeVertices_length {ndebug : Bool} {vs : List Addr} {s s' : DAG × List (DAGVertex σ π)}
    (hr : Returns (vs.foldlM (takeVertex ndebug) s) m s' m') : s'.2.length = s.2.length + vs.length := by
  induction vs generalizing s m with
  | nil =>
    obtain ⟨rfl, rfl⟩ := returns_pure.mp hr
    rfl
  | cons v vs ih =>
    rw [List.foldlM_cons, returns_bind] at hr
    obtain ⟨s₁, m₁, hfirst, hrest⟩ := hr
    have hone : s₁.2.length = s.2.length + 1 := by
      simp only [takeVertex, returns_bind] at hfirst
      obtain ⟨w, m₂, -, hfirst⟩ := hfirst
      cases ndebug with
      | true =>
        obtain ⟨rfl, -⟩ := returns_pure.mp hfirst
        simp
      | false =>
        simp only [Bool.false_eq_true, if_false, returns_bind, returns_pure] at hfirst
        obtain ⟨_, _, -, _, _, -, rfl, -⟩ := hfirst
        simp
    rw [ih hrest, hone, List.length_cons]
    omega

lemma processLoop_nonempty {ndebug : Bool} {vs : List Addr}
    (hr : Returns (processLoop ndebug fuel g vs out queue) m (g', out', queue') m') (h : ∀ b ∈ out, b ≠ []) :
    ∀ b ∈ out', b ≠ [] := by
  induction fuel generalizing g vs out queue m with
  | zero =>
    cases vs with
    | nil =>
      simp only [processLoop, returns_pure, Prod.mk.injEq] at hr
      obtain ⟨⟨-, rfl, -⟩, -⟩ := hr
      exact h
    | cons v vs => simp [processLoop] at hr
  | succ fuel ih =>
    cases vs with
    | nil =>
      simp only [processLoop, returns_pure, Prod.mk.injEq] at hr
      obtain ⟨⟨-, rfl, -⟩, -⟩ := hr
      exact h
    | cons v vs =>
      simp only [processLoop, returns_bind] at hr
      obtain ⟨_, m₁, -, ⟨g₁, taken⟩, m₂, htake, _, m₃, -, curr, m₄, -, hrest⟩ := hr
      refine ih hrest fun b hb => ?_
      rcases List.mem_append.mp hb with hb | hb
      · exact h b hb
      · have hlength := takeVertices_length htake
        rw [List.mem_singleton.mp hb, Ne, List.map_eq_nil_iff]
        rintro rfl
        simp at hlength

lemma processDag_nonempty (hg : g.Clonable m) (hac : g.Acyclic m) {answer : Bool}
    (hr : Returns (processDag false fuel g out queue) m (answer, out', queue') m') : ∀ b ∈ out', b ≠ [] := by
  obtain ⟨gClone, m₁, gCheck, m₂, cyclic, check, m₃, hr₁, hr₂, hr₃, -, hcyclic, hlen⟩ := prepare_returns hg
  obtain rfl : cyclic = false := hcyclic.mpr hac
  simp only [processDag, returns_bind] at hr
  obtain ⟨_, _, h₁, _, _, h₂, _, _, h₃, hr⟩ := hr
  obtain ⟨rfl, rfl⟩ := hr₁.unique h₁
  obtain ⟨rfl, rfl⟩ := hr₂.unique h₂
  obtain ⟨rfl, rfl⟩ := hr₃.unique h₃
  rw [if_pos (by simp [hlen rfl])] at hr
  simp only [returns_bind, returns_pure, Prod.mk.injEq] at hr
  obtain ⟨curr, m₄, -, ⟨g₅, out₅, queue₅⟩, m₅, hloop, _, m₆, -, _, m₇, -, ⟨-, rfl, -⟩, -⟩ := hr
  exact processLoop_nonempty hloop (by simp)

/-! The batches of a graph and of its plan. -/

lemma vertex_of_vertex {a : Addr} {w : DAGVertex σ π} (hw : m.vertex a = some w) (ts : List (Option UUID)) :
    Blueprint.vertex ⟨m.name a, (m.card a).clone, ts⟩ = w.clone.clone := by
  rw [name_of_vertex hw, card_of_vertex hw]
  rfl

/-- The vertices of a batch, as `process_dag` copies them. -/
def Memory.copies (m : Memory σ π) (l : List Addr) : List (DAGVertex σ π) :=
  (Blueprint.clone (Plan.draw l m.name m.card m.out)).map Blueprint.vertex

lemma copies_eq {l : List Addr} {vs : List (DAGVertex σ π)} (h : l.map m.vertex = vs.map some) :
    m.copies l = vs.map fun v => v.clone.clone := by
  rw [Memory.copies, Blueprint.clone, Plan.relabel, Plan.draw, List.map_map, List.map_map]
  induction l generalizing vs with
  | nil =>
    obtain rfl := List.map_eq_nil_iff.mp h.symm
    rfl
  | cons a l ih =>
    obtain ⟨v, vs, rfl⟩ := List.exists_cons_of_ne_nil (l := vs) (by rintro rfl; simp at h)
    simp only [List.map_cons, List.cons.injEq] at h ⊢
    exact ⟨vertex_of_vertex h.1 _, ih h.2⟩

lemma batch_eq {l : List Addr} {b : List (DAGVertex σ π)}
    (h : List.Forall₂ (fun a v => ∃ w, m.vertex a = some w ∧ v = w.clone.clone) l b) : b = m.copies l := by
  obtain ⟨vs, hvs, rfl⟩ : ∃ vs : List (DAGVertex σ π), l.map m.vertex = vs.map some ∧
      b = vs.map fun v => v.clone.clone := by
    induction h with
    | nil => exact ⟨[], rfl, rfl⟩
    | cons hv _ ih =>
      obtain ⟨w, hw, rfl⟩ := hv
      obtain ⟨vs, hvs, rfl⟩ := ih
      exact ⟨w :: vs, by rw [List.map_cons, hw, hvs, List.map_cons], rfl⟩
  exact (copies_eq hvs).symm

namespace DAG

/-- The batches are the layers, one by one, up to the last that is not empty. -/
lemma processDag_layers (hg : g.Clonable m) (hac : g.Acyclic m) (hfuel : g.graph.length ≤ fuel) (out : Batches σ π)
    (queue : TaskQueue σ π) : ∃ n m', (∀ j < n, layer g.graph m.targets j ≠ []) ∧
      remaining g.graph m.targets n = [] ∧ Untouched m m' ∧
      Returns (processDag false fuel g out queue) m
        (true, ((List.range n).map fun j => m.copies (layer g.graph m.targets j)).map (List.map DAGVertex.clone),
          queue ++ ((List.range n).map fun j => m.copies (layer g.graph m.targets j)).flatten.map
            DAGVertex.task) m' := by
  obtain ⟨n, bs, m', hr, hm, hnil, hbs⟩ := processDag_batches hg hac hfuel out queue
  have hbatches : bs = (List.range n).map fun j => m.copies (layer g.graph m.targets j) := by
    rw [List.forall₂_map_left_iff] at hbs
    have heq := hbs.imp fun j b hb => (batch_eq hb).symm
    rw [← List.forall₂_map_left_iff (f := fun j => m.copies (layer g.graph m.targets j)),
      List.forall₂_eq_eq_eq] at heq
    exact heq.symm
  subst hbatches
  refine ⟨n, m', fun j hj hempty => ?_, hnil, hm, hr⟩
  have hmem : m.copies [] ∈ (List.range n).map fun j => m.copies (layer g.graph m.targets j) :=
    List.mem_map.mpr ⟨j, List.mem_range.mpr hj, by rw [hempty]⟩
  exact processDag_nonempty hg hac hr _ (List.mem_map_of_mem hmem) rfl

lemma processDag_drawn (hg : g.Sound m) (hac : g.Acyclic m) (hfuel : g.graph.length ≤ fuel)
    (out : Batches σ π) (queue : TaskQueue σ π) :
    Tells (processDag false fuel g out queue) m (Blueprint.process (g.draw m) queue) := by
  by_cases hres : g.Resolves m
  · have hclonable := (hg.wellFormed hres).toClonable
    obtain ⟨n, m', hlayers, hnil, hm, hr⟩ := processDag_layers hclonable hac hfuel out queue
    have hlength : n ≤ (g.draw m).length := by
      rw [DAG.draw, Plan.draw, List.length_map]
      exact le_length_of_layers hg.nodup hnil hlayers
    have hpeel := Plan.peel_draw (k := 0) (f := m.card) hg.name_injective hclonable.inside.closed
      (fun a b => mem_out) (fun j _ hj => hlayers j (by omega)) (by rwa [Nat.zero_add]) hlength
    rw [remaining_zero, ← List.range_eq_range'] at hpeel
    have hcopied : (Plan.peel (List.length (g.draw m)) (g.draw m)).map
        (fun b => (Blueprint.clone b).map Blueprint.vertex) =
          (List.range n).map fun j => m.copies (layer g.graph m.targets j) :=
      (congrArg (List.map fun b => (Blueprint.clone b).map Blueprint.vertex) hpeel).trans (List.map_map ..)
    rw [Blueprint.process, if_neg fun h => hg.stale_draw.mp h hres]
    simp only [hcopied]
    exact .of_returns hr hm
  · rw [Blueprint.process, if_pos (hg.stale_draw.mpr hres)]
    refine .of_fault fun r m' hr => ?_
    simp only [processDag, returns_bind] at hr
    obtain ⟨gClone, m₁, hclone, -⟩ := hr
    exact hres (clone_resolves hg.owned hg.uuids hg.known hclone).1

end DAG

variable {x : World σ π} {es : List (Event σ π)} {title : String} {config : Document} {i : ℕ}

/-- In every run the scheduler gets, of each graph, the layers of its plan, or nothing where an edge lost
its target; and the graphs of the client stay what they are. -/
theorem Run.batches_queued (run : Run (World.start title config m) es x) (hd : ∀ e ∈ es, e.call.Disconnected)
    (hi : x.dags[i]? = some g) (hfuel : g.vertexCount ≤ fuel) (out : Batches σ π) (queue : TaskQueue σ π) :
    (outcome (processDag false fuel g out queue) x.memory).map Prod.fst =
        Blueprint.process (g.draw x.memory) queue ∧
      ∀ r m', Returns (processDag false fuel g out queue) x.memory r m' →
        Untouched x.memory m' ∧ (World.mk x.dags m').draw = x.draw := by
  obtain ⟨hg, hac⟩ := run.sound_world hd g (List.mem_of_getElem? hi)
  have htells := DAG.processDag_drawn hg hac hfuel out queue
  refine ⟨htells.answer, fun r m' h => ?_⟩
  have hm := htells.untouched r m' h
  exact ⟨hm, List.map_congr_left fun k _ => DAG.draw_congr hm.vertex k⟩

theorem Run.batches_queued_sample : ∃ g, Sample.connected.dags[0]? = some g ∧ ∀ queue : TaskQueue Unit Unit,
    (outcome (processDag false g.vertexCount g [] queue) Sample.connected.memory).map Prod.fst =
        Blueprint.process (g.draw Sample.connected.memory) queue := by
  have hsome : Sample.connected.dags[0]?.isSome = true := by decide +kernel
  obtain ⟨g, hg⟩ := Option.isSome_iff_exists.mp hsome
  exact ⟨g, hg, fun queue => (Run.batches_queued Sample.run Sample.disconnected hg le_rfl [] queue).1⟩

end DagScheduler.Graphs

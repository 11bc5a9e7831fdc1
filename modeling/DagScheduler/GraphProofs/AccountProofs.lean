import DagScheduler.GraphProofs.RunProofs

/-! Who owns the vertices in a run: each graph the ones it lists, and nobody else any. -/

namespace DagScheduler.Graphs

open Library Library.Programs

variable {σ π : Type} {m m' : Memory σ π} {g g' : DAG} {made : List DAG} {a : Addr} {vs : List (DAGVertex σ π)}
  {call : Call σ π}

/-- Nothing was done to the ownership of what lives at `a`. -/
structure Memory.SameOwners (m m' : Memory σ π) (a : Addr) : Prop where
  owners : m'.vertices.owners a = m.vertices.owners a
  live : m'.Live a ↔ m.Live a

lemma Memory.SameOwners.of_cell (h : m'.vertices.cell a = m.vertices.cell a) : m.SameOwners m' a := by
  refine ⟨SharedHeap.owners_of_cell_eq h, ?_⟩
  rw [Memory.Live, Memory.vertex, SharedHeap.value_of_cell_eq h]
  rfl

lemma Memory.SameOwners.trans {m'' : Memory σ π} (h : m.SameOwners m' a) (h' : m'.SameOwners m'' a) :
    m.SameOwners m'' a := ⟨h'.owners.trans h.owners, h'.live.trans h.live⟩

lemma Memory.owners_of_dead (h : m.vertices.cell a = none) : m.vertices.owners a = 0 ∧ ¬ m.Live a := by
  simp [SharedHeap.owners, Memory.Live, Memory.vertex, SharedHeap.value, h]

namespace DAG

lemma Grow.sameOwners {s s' : DAG × Memory σ π} (hs : Grow vs s s') (ha : a ∉ s'.1.graph) :
    a ∉ s.1.graph ∧ s.2.SameOwners s'.2 a := by
  cases hs with
  | untouched hm => exact ⟨ha, .of_cell (hm.cell a)⟩
  | @edge g m x y _ _ _ _ =>
    have hf := Frame.addEdge m x y
    exact ⟨ha, hf.owners a, hf.live a⟩
  | vertex _ _ =>
    obtain ⟨hag, hne⟩ : a ∉ _ ∧ a ≠ _ := by simpa using ha
    exact ⟨hag, .of_cell (SharedHeap.cell_makeShared_ne _ _ hne)⟩

lemma Growth.sameOwners {s s' : DAG × Memory σ π} (hs : Growth vs s s') (ha : a ∉ s'.1.graph) :
    a ∉ s.1.graph ∧ s.2.SameOwners s'.2 a := by
  induction hs with
  | refl => exact ⟨ha, .of_cell rfl⟩
  | tail _ hlast ih =>
    obtain ⟨ha', hsame'⟩ := hlast.sameOwners ha
    obtain ⟨hag, hsame⟩ := ih ha'
    exact ⟨hag, hsame.trans hsame'⟩

variable [TaskStage σ] [TaskCallbackPlugin π]

/-- A vertex that leaves the graph dies; what no graph had before or has now keeps its owners. -/
lemma Effect.sameOwners (he : Effect call g m g' made m') (ha : a ∉ g'.graph) (hmade : ∀ k ∈ made, a ∉ k.graph) :
    a ∈ g.graph ∧ m'.vertices.cell a = none ∨ a ∉ g.graph ∧ m.SameOwners m' a := by
  cases he with
  | growth hs => exact .inr (Growth.sameOwners hs ha)
  | removal hs =>
    by_cases har : a ∈ g.graph.filter (call.removes m)
    · exact .inl ⟨(List.mem_filter.mp har).1, hs.dead a har⟩
    · refine .inr ⟨fun hag => ?_, hs.owners a har, hs.live.trans (and_iff_left har)⟩
      cases hr : call.removes m a with
      | true => exact har (List.mem_filter.mpr ⟨hag, hr⟩)
      | false => exact ha (List.mem_filter.mpr ⟨hag, by rw [hr]; rfl⟩)
  | clone hs =>
    have hak := hmade _ (List.mem_singleton_self _)
    rw [hs.graph] at hak
    refine .inr ⟨ha, ?_⟩
    by_cases hlt : a < m.vertices.next
    · exact .of_cell (hs.copied.old a hlt)
    · have hle := Nat.le_of_not_lt hlt
      exact .of_cell ((hs.copied.rest a hle hak).trans (m.vertices.unused a hle).symm)

end DAG

variable {w w' : World σ π} {es : List (Event σ π)} {title : String} {config : Document}

/-- The graphs hold vertices made since `m`; all others are as they were. -/
structure World.Accounts (m : Memory σ π) (w : World σ π) : Prop where
  next : m.vertices.next ≤ w.memory.vertices.next
  fresh : ∀ g ∈ w.dags, ∀ a ∈ g.graph, m.vertices.next ≤ a
  rest : ∀ a, (∀ g ∈ w.dags, a ∉ g.graph) → m.SameOwners w.memory a

lemma World.Apart.nodup (hw : w.Apart) : (w.dags.flatMap DAG.graph).Nodup :=
  List.nodup_flatMap.mpr ⟨fun g hg => (hw.base g hg).nodup, hw.disjoint⟩

lemma World.Accounts.owners (h : w.Accounts m) (hw : w.Apart) (a : Addr) :
    w.memory.vertices.owners a = m.vertices.owners a + (w.dags.flatMap DAG.graph).count a ∧
      (w.memory.Live a ↔ m.Live a ∨ ∃ g ∈ w.dags, a ∈ g.graph) := by
  by_cases hin : ∃ g ∈ w.dags, a ∈ g.graph
  · obtain ⟨g, hg, hag⟩ := hin
    have hstart := Memory.owners_of_dead (m.vertices.unused a (h.fresh g hg a hag))
    have hcount := List.count_eq_one_of_mem hw.nodup (List.mem_flatMap.mpr ⟨g, hg, hag⟩)
    rw [(hw.base g hg).sole a hag, hstart.1, hcount]
    exact ⟨rfl, iff_of_true ((hw.base g hg).live hag) (.inr ⟨g, hg, hag⟩)⟩
  · have hsame := h.rest a fun g hg hag => hin ⟨g, hg, hag⟩
    have hcount : (w.dags.flatMap DAG.graph).count a = 0 :=
      List.count_eq_zero_of_not_mem fun hmem => hin (List.mem_flatMap.mp hmem)
    rw [hsame.owners, hcount, hsame.live]
    exact ⟨rfl, (or_iff_left hin).symm⟩

lemma returns_destroyEach (gs : List DAG) (m : Memory σ π) :
    Returns (gs.forM DAG.destroy) m () (m.release (gs.flatMap DAG.graph)) := by
  induction gs generalizing m with
  | nil => exact returns_forM_nil.mpr rfl
  | cons g gs ih =>
    refine returns_forM_cons.mpr ⟨m.release g.graph, returns_modify.mpr rfl, ?_⟩
    have hrelease : m.release ((g :: gs).flatMap DAG.graph) = (m.release g.graph).release (gs.flatMap DAG.graph) := by
      simp [Memory.release, SharedHeap.releaseAll]
    rw [hrelease]
    exact ih _

variable [TaskStage σ] [TaskCallbackPlugin π]

lemma Run.accounts (run : Run (World.start title config m) es w) : w.Accounts m := by
  induction run with
  | start =>
    refine ⟨le_refl _, fun g hg a ha => ?_, fun a _ => .of_cell rfl⟩
    obtain rfl := List.mem_singleton.mp hg
    exact absurd ha List.not_mem_nil
  | @step es w w' i c run ho hs ih =>
    obtain ⟨l₁, g, l₂, g', made, hdags, -, hdags', he, -⟩ := (run.apart (World.apart_start title config m)).step ho hs
    obtain ⟨hgraph, hfresh⟩ := he.graphs
    have hold {k : DAG} (hk : k ∈ l₁ ++ l₂) : k ∈ w.dags :=
      hdags ▸ List.mem_append.mpr ((List.mem_append.mp hk).imp id (List.mem_cons_of_mem _))
    have hg : g ∈ w.dags := by simp [hdags]
    have hnext : w.memory.vertices.next ≤ w'.memory.vertices.next := (he.evolves (V := []) (by simp)).next
    refine ⟨ih.next.trans hnext, fun k hk a ha => ?_, fun a ha => ?_⟩
    · rw [hdags', List.mem_append, List.mem_append, List.mem_cons] at hk
      rcases hk with (hk | rfl | hk) | hk
      · exact ih.fresh k (hold (List.mem_append_left _ hk)) a ha
      · exact (hgraph a ha).elim (ih.fresh g hg a) ih.next.trans
      · exact ih.fresh k (hold (List.mem_append_right _ hk)) a ha
      · exact ih.next.trans ((hfresh k hk).2.2 a ha)
    · have ha' : a ∉ g'.graph := ha g' (by simp [hdags'])
      have hothers : ∀ k ∈ l₁ ++ l₂, a ∉ k.graph := fun k hk => ha k (by
        rw [hdags']
        exact List.mem_append_left _ (List.mem_append.mpr ((List.mem_append.mp hk).imp id (List.mem_cons_of_mem _))))
      rcases he.sameOwners ha' (fun k hk => ha k (by simp [hdags', hk])) with ⟨hag, hdead⟩ | ⟨hag, hsame⟩
      · -- It was made in this run, so there was nothing at the start either.
        exact .of_cell (hdead.trans (m.vertices.unused a (ih.fresh g hg a hag)).symm)
      · refine (ih.rest a fun k hk hak => ?_).trans hsame
        rw [hdags, List.mem_append, List.mem_cons] at hk
        rcases hk with hk | rfl | hk
        · exact hothers k (List.mem_append_left _ hk) hak
        · exact hag hak
        · exact hothers k (List.mem_append_right _ hk) hak

/-- In every run a vertex has as many owners as graphs list it, on top of those it had before, and lives as
long as it has one; when the graphs are destroyed all is as it was before. -/
theorem Run.accounted (run : Run (World.start title config m) es w) :
    (∀ a, w.memory.vertices.owners a = m.vertices.owners a + (w.dags.flatMap DAG.graph).count a ∧
      (w.memory.Live a ↔ m.Live a ∨ ∃ g ∈ w.dags, a ∈ g.graph)) ∧
    ∃ m', Returns (w.dags.forM DAG.destroy) w.memory () m' ∧
      ∀ a, m'.vertices.owners a = m.vertices.owners a ∧ (m'.Live a ↔ m.Live a) := by
  have hw := run.apart (World.apart_start title config m)
  have haccounts := run.accounts
  refine ⟨fun a => haccounts.owners hw a, _, returns_destroyEach _ _, fun a => ?_⟩
  by_cases hin : ∃ g ∈ w.dags, a ∈ g.graph
  · obtain ⟨g, hg, hag⟩ := hin
    have hdead : (w.memory.vertices.releaseAll (w.dags.flatMap DAG.graph)).cell a = none :=
      SharedHeap.cell_releaseAll_last _ hw.nodup (List.mem_flatMap.mpr ⟨g, hg, hag⟩) ((hw.base g hg).sole a hag).le
    have hsame : m.SameOwners (w.memory.release (w.dags.flatMap DAG.graph)) a :=
      .of_cell (hdead.trans (m.vertices.unused a (haccounts.fresh g hg a hag)).symm)
    exact ⟨hsame.owners, hsame.live⟩
  · have hrest : (w.memory.vertices.releaseAll (w.dags.flatMap DAG.graph)).cell a = w.memory.vertices.cell a :=
      SharedHeap.cell_releaseAll_of_notMem _ fun hmem => hin (List.mem_flatMap.mp hmem)
    have hsame : m.SameOwners (w.memory.release (w.dags.flatMap DAG.graph)) a :=
      (haccounts.rest a fun g hg hag => hin ⟨g, hg, hag⟩).trans (.of_cell hrest)
    exact ⟨hsame.owners, hsame.live⟩

theorem Run.accounted_sample :
    (∀ a, Sample.connected.memory.vertices.owners a =
        Sample.memory.vertices.owners a + (Sample.connected.dags.flatMap DAG.graph).count a ∧
      (Sample.connected.memory.Live a ↔ Sample.memory.Live a ∨ ∃ g ∈ Sample.connected.dags, a ∈ g.graph)) ∧
    ∃ m', Returns (Sample.connected.dags.forM DAG.destroy) Sample.connected.memory () m' ∧
      ∀ a, m'.vertices.owners a = Sample.memory.vertices.owners a ∧ (m'.Live a ↔ Sample.memory.Live a) :=
  Run.accounted Sample.run

end DagScheduler.Graphs

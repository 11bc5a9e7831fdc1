import DagScheduler.GraphProofs.RunProofs

/-! Whether edges stay inside their graph. A removal does not look for the edges that point at what
it removes, so they stay, and expire. -/

namespace DagScheduler.Graphs

open Library Library.Programs Library.Digraphs

variable {σ π : Type} {w : World σ π} {c : Call σ π} {es : List (Event σ π)} {m m' : Memory σ π}
  {g g' h : DAG} {made : List DAG} {p : Addr → Bool}

namespace DAG

def Intact (g : DAG) (m : Memory σ π) : Prop :=
  ∀ a ∈ g.graph, ∀ e ∈ m.edges a, ∃ b ∈ g.graph, e.connection = some b ∧ m.Live b

instance (g : DAG) (m : Memory σ π) : Decidable (g.Intact m) :=
  inferInstanceAs (Decidable (∀ a ∈ g.graph, ∀ e ∈ m.edges a, ∃ b ∈ g.graph, e.connection = some b ∧ m.Live b))

lemma Base.intact_iff (hg : g.Base m) : g.Intact m ↔ g.EdgesInside m := by
  constructor
  · intro h a ha e he
    obtain ⟨b, hb, hec, -⟩ := h a ha e he
    exact ⟨b, hb, hec⟩
  · intro h a ha e he
    obtain ⟨b, hb, hec⟩ := h a ha e he
    exact ⟨b, hb, hec, hg.live hb⟩

def Clear (g : DAG) (m : Memory σ π) (p : Addr → Bool) : Prop :=
  ∀ a ∈ g.graph, ∀ b ∈ g.graph, p a = false → p b = true → ∀ e ∈ m.edges a, e.connection ≠ some b

lemma EdgesInside.removal_iff (hi : g.EdgesInside m) (hr : Removal g m (g.graph.filter p) m') :
    EdgesInside { g with graph := g.graph.filter fun a => !p a } m' ↔ g.Clear m p := by
  have hstay : ∀ a ∈ g.graph, p a = false → a ∉ g.graph.filter p := fun a _ hp har => by
    simp [(List.mem_filter.mp har).2] at hp
  constructor
  · intro hi' a ha b hb hpa hpb e he hec
    have hkept : a ∈ g.graph.filter fun a => !p a := List.mem_filter.mpr ⟨ha, by simp [hpa]⟩
    rw [← hr.edges a (hstay a ha hpa)] at he
    obtain ⟨d, hd, hed⟩ := hi' a hkept e he
    obtain rfl : b = d := Option.some.inj (hec.symm.trans hed)
    simp [hpb] at hd
  · intro hc a ha e he
    obtain ⟨hag, hpa⟩ := List.mem_filter.mp ha
    have hpa' : p a = false := by simpa using hpa
    rw [hr.edges a (hstay a hag hpa')] at he
    obtain ⟨b, hb, hec⟩ := hi a hag e he
    refine ⟨b, List.mem_filter.mpr ⟨hb, ?_⟩, hec⟩
    cases hpb : p b with
    | false => rfl
    | true => exact absurd hec (hc a hag b hb hpa' hpb e he)

lemma EdgesInside.of_edges (hi : g.EdgesInside m) (he : ∀ a ∈ g.graph, m'.edges a = m.edges a) :
    g.EdgesInside m' := by
  intro a ha e hea
  rw [he a ha] at hea
  exact hi a ha e hea

def Brings (g : DAG) (m : Memory σ π) (v : DAGVertex σ π) : Prop :=
  (∀ a ∈ g.graph, m.uuid a ≠ some v.uuid) → ∀ e ∈ v.edges, ∃ b ∈ g.graph, e.connection = some b

lemma Grow.inside {vs : List (DAGVertex σ π)} (hs : Grow vs (g, m) (g', m')) (hg : g.Base m)
    (hi : g.EdgesInside m) (hvs : ∀ v ∈ vs, g.Brings m v) :
    g'.EdgesInside m' ∧ g.graph ⊆ g'.graph ∧ ∀ a ∈ g.graph, m'.uuid a = m.uuid a := by
  cases hs with
  | untouched hm => exact ⟨hi.of_edges (fun a _ => hm.edges a), List.Subset.refl _, fun a _ => hm.uuid a⟩
  | edge ha hb _ _ =>
    exact ⟨hi.addEdge (hg.live ha) hb, List.Subset.refl _, fun a _ => (Frame.addEdge _ _ _).uuid a⟩
  | @vertex _ _ v hv hn =>
    have hkept := kept_makeShared m v
    refine ⟨?_, List.subset_append_left _ _, fun a ha => hkept.uuid (hg.lt ha)⟩
    intro a ha e he
    rcases List.mem_append.mp ha with ha | ha
    · rw [hkept.edges (hg.lt ha)] at he
      obtain ⟨b, hb, hec⟩ := hi a ha e he
      exact ⟨b, List.mem_append_left _ hb, hec⟩
    · rw [List.mem_singleton.mp ha, edges_of_vertex (vertex_makeShared_self m v)] at he
      obtain ⟨b, hb, hec⟩ := hvs v hv hn e he
      exact ⟨b, List.mem_append_left _ hb, hec⟩

lemma Growth.inside {vs : List (DAGVertex σ π)} (hs : Growth vs (g, m) (g', m')) (hg : g.Base m)
    (hknown : ∀ v ∈ vs, v.Known m) (hi : g.EdgesInside m) (hvs : ∀ v ∈ vs, g.Brings m v) :
    g'.EdgesInside m' := by
  let I : DAG → Memory σ π → Prop := fun k m₁ =>
    k.EdgesInside m₁ ∧ g.graph ⊆ k.graph ∧ ∀ a ∈ g.graph, m₁.uuid a = m.uuid a
  have hstep : ∀ k m₁ k' m₂, k.Base m₁ → (∀ v ∈ vs, v.Known m₁) → I k m₁ →
      Grow vs (k, m₁) (k', m₂) → I k' m₂ := by
    rintro k m₁ k' m₂ hk _ ⟨hi₁, hsub, hu⟩ hs
    have hbrings : ∀ v ∈ vs, k.Brings m₁ v := by
      intro v hv hn e he
      obtain ⟨b, hb, hec⟩ := hvs v hv (fun a ha => hu a ha ▸ hn a (hsub ha)) e he
      exact ⟨b, hsub hb, hec⟩
    obtain ⟨hi₂, hsub₂, hu₂⟩ := hs.inside hk hi₁ hbrings
    exact ⟨hi₂, fun a ha => hsub₂ (hsub ha), fun a ha => (hu₂ a (hsub ha)).trans (hu a ha)⟩
  exact (Growth.induct hs hstep hg hknown ⟨hi, List.Subset.refl _, fun _ _ => rfl⟩).2.2.1

lemma Intact.resolves (hg : g.Base m) (hi : g.Intact m) : g.Resolves m := by
  intro a ha e he
  obtain ⟨b, hb, hec, hl⟩ := hi a ha e he
  rw [resolve, connection_eq_some.mpr ⟨hec, hl⟩, Option.bind_some, find_uuid hg.uuids hb rfl]
  rfl

lemma edgeCount_returns (hg : g.Base m) (hi : g.Intact m) :
    Returns g.edgeCount m (g.graph.map fun a => (m.targets a).length).sum m := by
  have hlen : ∀ a ∈ g.graph, (m.targets a).length = (m.edges a).length := by
    intro a ha
    have hall : ∀ e ∈ m.edges a, (m.connection e).isSome := by
      intro e he
      obtain ⟨b, -, hec, hl⟩ := hi a ha e he
      rw [connection_eq_some.mpr ⟨hec, hl⟩]
      rfl
    rw [Memory.targets, List.length_filterMap_eq_countP]
    exact List.countP_eq_length.mpr hall
  rw [List.map_congr_left hlen]
  exact returns_edgeCount fun a ha => hg.live ha

end DAG

/-- What a call must not do to a graph for its edges to stay inside: bring edges from outside, or
remove a vertex that a vertex that stays has an edge to. -/
def Call.Clears (c : Call σ π) (g : DAG) (m : Memory σ π) : Prop :=
  (∀ v ∈ c.vertices, g.Brings m v) ∧ g.Clear m (c.removes m)

lemma Call.Disconnected.brings (hd : c.Disconnected) : ∀ v ∈ c.vertices, g.Brings m v := by
  intro v hv _ e he
  rw [(hd.vertices v hv).edges] at he
  exact absurd he List.not_mem_nil

lemma DAG.clear_of_none (hp : ∀ a, p a = false) : g.Clear m p := by
  intro a _ b _ _ hb
  simp [hp b] at hb

variable [TaskStage σ] [TaskCallbackPlugin π]

lemma DAG.Effect.inside (he : DAG.Effect c g m g' made m') (hg : g.Base m)
    (hvs : ∀ v ∈ c.vertices, v.Known m) (hi : g.EdgesInside m) (hc : c.Clears g m) :
    g'.EdgesInside m' ∧ ∀ k ∈ made, k.EdgesInside m' := by
  cases he with
  | growth hs => exact ⟨DAG.Growth.inside hs hg hvs hi hc.1, by simp⟩
  | removal hs => exact ⟨(hi.removal_iff hs).mpr hc.2, by simp⟩
  | clone hs =>
    refine ⟨hi.of_edges (fun a ha => hs.kept.edges (hg.lt ha)), ?_⟩
    intro k hk
    rw [List.mem_singleton.mp hk]
    exact hs.wellFormed.inside

variable {title : String} {config : Document}

lemma Run.edges_inside (run : Run (World.start title config m) es w)
    (hc : ∀ e ∈ es, e.Meets Call.Clears) :
    ∀ (i : ℕ) g, w.dags[i]? = some g → g.EdgesInside w.memory := by
  refine run.forall_dags (P := fun _ g m => g.EdgesInside m) (Q := Call.Clears) ?_ ?_
    (World.apart_start title config m) ?_ hc
  · intro i c g m g' made m' hc hg hvs hi he
    obtain ⟨hi', hmade⟩ := he.inside hg hvs hi hc
    exact ⟨hi', fun k hk _ _ => hmade k hk⟩
  · intro i j c g m g' made m' k _ hg _ hk hi hdis he
    exact hi.of_edges (he.evolves (fun a ha => ⟨hdis a ha, hk.lt ha⟩)).edges
  · exact World.start_dags (fun _ g m => g.EdgesInside m) (fun a ha => absurd ha List.not_mem_nil)

lemma Run.clonable (run : Run (World.start title config m) es w) (hc : ∀ e ∈ es, e.Meets Call.Clears) :
    ∀ g ∈ w.dags, g.Clonable w.memory := by
  intro g hg
  obtain ⟨i, hi⟩ := List.mem_iff_getElem?.mp hg
  have hb := (run.apart (World.apart_start title config m)).base g hg
  exact ⟨hb.owned, run.edges_inside hc i g hi, hb.uuids, hb.config⟩

/-- In a run whose calls all clear what they remove, every edge has a live connection inside its
graph, so that the graph can be cloned and its edges counted. -/
theorem Run.integrity (run : Run (World.start title config m) es w)
    (hc : ∀ e ∈ es, e.Meets Call.Clears) :
    ∀ g ∈ w.dags, g.Intact w.memory ∧ (∃ k m', Returns g.clone w.memory k m') ∧
      Returns g.edgeCount w.memory (g.graph.map fun a => (w.memory.targets a).length).sum w.memory := by
  intro g hg
  obtain ⟨i, hi⟩ := List.mem_iff_getElem?.mp hg
  have hb : g.Base w.memory := (run.apart (World.apart_start title config m)).base g hg
  have hintact : g.Intact w.memory := hb.intact_iff.mpr (run.edges_inside hc i g hi)
  obtain ⟨k, m', hr, -⟩ := DAG.clone_returns hb.owned hb.uuids hb.known hb.config (hintact.resolves hb)
  exact ⟨hintact, ⟨k, m', hr⟩, DAG.edgeCount_returns hb hintact⟩

theorem Run.integrity_sample :
    Sample.connected.dags.length = 1 ∧ ∀ g ∈ Sample.connected.dags, g.Intact Sample.connected.memory ∧
      (∃ k m', Returns g.clone Sample.connected.memory k m') ∧
      Returns g.edgeCount Sample.connected.memory
        (g.graph.map fun a => (Sample.connected.memory.targets a).length).sum Sample.connected.memory := by
  refine ⟨by decide +kernel, Run.integrity Sample.run ?_⟩
  intro e he g _
  refine ⟨(Sample.disconnected e he).brings, DAG.clear_of_none ?_⟩
  simp only [Sample.events, List.mem_cons, List.not_mem_nil, or_false] at he
  rcases he with rfl | rfl | rfl <;> exact fun _ => rfl

def Sample.removed : World Unit Unit :=
  (Sample.connected.step 0 (.removeVertexByUuid ⟨2⟩)).get (by decide +kernel)

instance (g : DAG) (m : Memory σ π) : Decidable (g.Resolves m) :=
  inferInstanceAs (Decidable (∀ a ∈ g.graph, ∀ e ∈ m.edges a, (g.resolve m e).isSome))

/-- Adding two vertices, connecting them and removing the second leaves the first with an expired
edge, and a graph that cannot be cloned any more. -/
theorem Run.integrity_fails :
    ∃ es w, Run Sample.start es w ∧ (∀ e ∈ es, e.call.Disconnected) ∧
      ∃ g ∈ w.dags, ¬ g.Intact w.memory ∧ ∀ k m', ¬ Returns g.clone w.memory k m' := by
  have hstep : Sample.connected.step 0 (.removeVertexByUuid ⟨2⟩) = some Sample.removed :=
    (Option.some_get _).symm
  have hoffered : (Call.removeVertexByUuid ⟨2⟩ : Call Unit Unit).Offered Sample.connected.memory := trivial
  have hrun := Sample.run.step hoffered hstep
  refine ⟨_, _, hrun, ?_, ?_⟩
  · intro e he
    rcases List.mem_append.mp he with he | he
    · exact Sample.disconnected e he
    · rw [List.mem_singleton.mp he]
      trivial
  · have hfound : ∃ g ∈ Sample.removed.dags, ¬ g.Intact Sample.removed.memory ∧
        ¬ g.Resolves Sample.removed.memory := by decide +kernel
    obtain ⟨g, hg, hn, hres⟩ := hfound
    refine ⟨g, hg, hn, fun k m' hr => hres ?_⟩
    have hb := (hrun.apart (World.apart_start _ _ _)).base g hg
    exact (DAG.clone_resolves hb.owned hb.uuids hb.known hr).1

end DagScheduler.Graphs

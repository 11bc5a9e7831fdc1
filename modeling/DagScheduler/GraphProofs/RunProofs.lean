import DagScheduler.GraphProofs.InvariantProofs

/-! Invariants of whole runs of a client. -/

namespace DagScheduler.Graphs

open Library Library.Programs Library.Digraphs

variable {σ π : Type} {w₀ w w' : World σ π} {i : ℕ} {c : Call σ π} {es : List (Event σ π)}
  {m m' : Memory σ π} {g g' h : DAG} {made : List DAG}

/-- The graphs of a client are sound one by one, and share no vertex. -/
structure World.Apart (w : World σ π) : Prop where
  base : ∀ g ∈ w.dags, g.Base w.memory
  disjoint : w.dags.Pairwise fun g h => g.graph.Disjoint h.graph

lemma Call.Offered.known (ho : c.Offered m) : ∀ v ∈ c.vertices, v.Known m := by
  cases c with
  | addVertex v =>
    intro x hx e he
    rw [List.mem_singleton.mp hx, DAGVertex.Disconnected.edges ho] at he
    exact absurd he List.not_mem_nil
  | addAndConnect v1 v2 => simpa [Call.vertices, Call.Offered] using ho
  | _ => simp [Call.vertices]

lemma Call.Disconnected.vertices (hd : c.Disconnected) : ∀ v ∈ c.vertices, v.Disconnected := by
  cases c with
  | addVertex v => simpa [Call.vertices, Call.Disconnected] using hd
  | addAndConnect v1 v2 => simpa [Call.vertices, Call.Disconnected] using hd
  | _ => simp [Call.vertices]

lemma World.Apart.middle {l₁ l₂ : List DAG} (hw : w.Apart) (hdags : w.dags = l₁ ++ g :: l₂) :
    g.Base w.memory ∧ (∀ h ∈ l₁ ++ l₂, h.Base w.memory ∧ g.graph.Disjoint h.graph) ∧
      (l₁ ++ l₂).Pairwise fun g h => g.graph.Disjoint h.graph := by
  have hperm : w.dags.Perm (g :: (l₁ ++ l₂)) := hdags ▸ List.perm_middle
  have hpair := (hperm.pairwise_iff (fun hd => hd.symm)).mp hw.disjoint
  obtain ⟨hg, hrest⟩ := List.pairwise_cons.mp hpair
  refine ⟨hw.base g (hperm.mem_iff.mpr List.mem_cons_self), fun h hh => ⟨?_, hg h hh⟩, hrest⟩
  exact hw.base h (hperm.mem_iff.mpr (List.mem_cons_of_mem _ hh))

lemma World.apart_start (title : String) (config : Document) (m : Memory σ π) :
    (World.start title config m).Apart where
  base g hg := by
    obtain rfl := List.mem_singleton.mp hg
    exact ⟨List.nodup_nil, by simp, fun a ha => absurd ha List.not_mem_nil,
      fun a ha => absurd ha List.not_mem_nil, rfl⟩
  disjoint := List.pairwise_singleton _ _

def Event.Meets (Q : Call σ π → DAG → Memory σ π → Prop) (e : Event σ π) : Prop :=
  ∀ g, e.world.dags[e.index]? = some g → Q e.call g e.world.memory

variable {title : String} {config : Document}

lemma World.start_dags (P : ℕ → DAG → Memory σ π → Prop)
    (hP : P 0 ⟨[], title, some config⟩ { m with wrapped := false }) (i : ℕ) (g : DAG)
    (hg : (World.start title config m).dags[i]? = some g) : P i g (World.start title config m).memory := by
  obtain ⟨hi, rfl⟩ := List.getElem?_eq_some_iff.mp hg
  obtain rfl : i = 0 := Nat.lt_one_iff.mp hi
  exact hP

lemma DAG.acyclic_nil : DAG.Acyclic ⟨[], title, some config⟩ m := by
  intro a ha
  obtain ⟨b, hab, -⟩ := Relation.TransGen.head'_iff.mp ha
  exact List.not_mem_nil hab.1

variable [TaskStage σ] [TaskCallbackPlugin π]

lemma World.step_cases (hs : w.step i c = some w') :
    ∃ l₁ g l₂ g' made, w.dags = l₁ ++ g :: l₂ ∧ i = l₁.length ∧ w'.dags = (l₁ ++ g' :: l₂) ++ made ∧
      Returns (c.perform g) w.memory (g', made) w'.memory := by
  unfold World.step at hs
  cases hg : w.dags[i]? with
  | none => simp [hg] at hs
  | some g =>
    simp only [hg] at hs
    obtain ⟨hi, hgi⟩ := List.getElem?_eq_some_iff.mp hg
    cases hr : (c.perform g).run w.memory with
    | error e => simp [hr] at hs
    | ok r =>
      obtain ⟨⟨g', made⟩, m'⟩ := r
      simp only [hr, Option.some.injEq] at hs
      subst hs
      refine ⟨w.dags.take i, g, w.dags.drop (i + 1), g', made, ?_, ?_, ?_, hr⟩
      · rw [← hgi]
        simp
      · simp [hi.le]
      · simp [List.set_eq_take_append_cons_drop, hi]

lemma World.Apart.step (hw : w.Apart) (ho : c.Offered w.memory) (hs : w.step i c = some w') :
    ∃ l₁ g l₂ g' made, w.dags = l₁ ++ g :: l₂ ∧ i = l₁.length ∧ w'.dags = (l₁ ++ g' :: l₂) ++ made ∧
      DAG.Effect c g w.memory g' made w'.memory ∧ w'.Apart := by
  obtain ⟨l₁, g, l₂, g', made, hdags, hi, hdags', hr⟩ := World.step_cases hs
  obtain ⟨hg, hothers, hpair⟩ := hw.middle hdags
  have he := DAG.perform_effect hg ho hr
  refine ⟨l₁, g, l₂, g', made, hdags, hi, hdags', he, ?_⟩
  obtain ⟨hg', hmade⟩ := he.base hg ho.known
  obtain ⟨hgraph, hfresh⟩ := he.graphs
  have hperm : w'.dags.Perm (g' :: (made ++ (l₁ ++ l₂))) := by
    rw [hdags']
    exact List.perm_append_comm.trans ((List.perm_middle.append_left made).trans List.perm_middle)
  have hlt : ∀ h ∈ l₁ ++ l₂, ∀ a ∈ h.graph, a ∉ g.graph ∧ a < w.memory.vertices.next := fun h hh a ha =>
    ⟨fun hag => (hothers h hh).2 hag ha, (hothers h hh).1.lt ha⟩
  have hbase : ∀ h ∈ l₁ ++ l₂, h.Base w'.memory := fun h hh =>
    (hothers h hh).1.evolves (he.evolves (hlt h hh)) (List.Sublist.refl _) rfl
  have hnew : ∀ h ∈ l₁ ++ l₂, ∀ a ∈ h.graph, a ∉ g'.graph := by
    intro h hh a ha hag
    rcases hgraph a hag with hag | hle
    · exact (hlt h hh a ha).1 hag
    · exact absurd (hlt h hh a ha).2 (Nat.not_lt.mpr hle)
  constructor
  · intro h hh
    rcases List.mem_cons.mp (hperm.mem_iff.mp hh) with rfl | hh
    · exact hg'
    · rcases List.mem_append.mp hh with hh | hh
      · exact hmade h hh
      · exact hbase h hh
  · rw [hperm.pairwise_iff (fun hd => hd.symm)]
    refine List.pairwise_cons.mpr ⟨?_, List.pairwise_append.mpr ⟨?_, hpair, ?_⟩⟩
    · intro h hh a hag hah
      rcases List.mem_append.mp hh with hh | hh
      · obtain ⟨rfl, -, hk⟩ := hfresh h hh
        exact absurd (hg.lt hag) (Nat.not_lt.mpr (hk a hah))
      · exact hnew h hh a hah hag
    · cases made with
      | nil => exact List.Pairwise.nil
      | cons k ks =>
        obtain ⟨-, hone, -⟩ := hfresh k List.mem_cons_self
        rw [hone]
        exact List.pairwise_singleton _ _
    · intro k hk h hh a hak hah
      obtain ⟨-, -, hfk⟩ := hfresh k hk
      exact absurd (hlt h hh a hah).2 (Nat.not_lt.mpr (hfk a hak))

lemma Run.apart (run : Run w₀ es w) (hw₀ : w₀.Apart) : w.Apart := by
  induction run with
  | start => exact hw₀
  | step _ ho hs ih =>
    obtain ⟨-, -, -, -, -, -, -, -, -, hw'⟩ := ih.step ho hs
    exact hw'

lemma Run.forall_dags {P : ℕ → DAG → Memory σ π → Prop} {Q : Call σ π → DAG → Memory σ π → Prop}
    (hself : ∀ i c g m g' made m', Q c g m → g.Base m → (∀ v ∈ c.vertices, v.Known m) → P i g m →
      DAG.Effect c g m g' made m' → P i g' m' ∧ ∀ k ∈ made, ∀ j, 0 < j → P j k m')
    (hother : ∀ i j c g m g' made m' h, Q c g m → g.Base m → P i g m → h.Base m → P j h m →
      (∀ a ∈ h.graph, a ∉ g.graph) → DAG.Effect c g m g' made m' → P j h m')
    (run : Run w₀ es w) (hw₀ : w₀.Apart) (hP : ∀ i g, w₀.dags[i]? = some g → P i g w₀.memory)
    (hQ : ∀ e ∈ es, e.Meets Q) : ∀ i g, w.dags[i]? = some g → P i g w.memory := by
  induction run with
  | start => exact hP
  | @step es w w' k c run ho hs ih =>
    have ih' := ih (fun e he => hQ e (List.mem_append_left _ he))
    have hw := run.apart hw₀
    obtain ⟨l₁, g, l₂, g', made, hdags, hi, hdags', he, -⟩ := hw.step ho hs
    obtain ⟨hg, hothers, -⟩ := hw.middle hdags
    have hgk : w.dags[k]? = some g := by simp [hdags, hi]
    have hq : Q c g w.memory := hQ ⟨w, k, c⟩ (by simp) g hgk
    have hPg := ih' k g hgk
    obtain ⟨hg', hmade⟩ := hself k c g w.memory g' made w'.memory hq hg ho.known hPg he
    have hold : ∀ j h, h ∈ l₁ ++ l₂ → w.dags[j]? = some h → P j h w'.memory := fun j h hh hj =>
      hother k j c g w.memory g' made w'.memory h hq hg hPg (hothers h hh).1 (ih' j h hj)
        (fun a hah hag => (hothers h hh).2 hag hah) he
    intro j h hj
    rw [hdags', List.append_assoc, List.getElem?_append] at hj
    split_ifs at hj with hj₁
    · refine hold j h (List.mem_append_left _ (List.mem_of_getElem? hj)) ?_
      rw [hdags, List.getElem?_append_left hj₁]
      exact hj
    · cases hd : j - l₁.length with
      | zero =>
        obtain rfl : j = k := by omega
        rw [hd] at hj
        simp only [List.cons_append, List.getElem?_cons_zero, Option.some.injEq] at hj
        exact hj ▸ hg'
      | succ d =>
        rw [hd, List.cons_append, List.getElem?_cons_succ, List.getElem?_append] at hj
        split_ifs at hj with hd₂
        · refine hold j h (List.mem_append_right _ (List.mem_of_getElem? hj)) ?_
          rw [hdags, List.getElem?_append_right (by omega), hd, List.getElem?_cons_succ]
          exact hj
        · exact hmade h (List.mem_of_getElem? hj) j (by omega)

lemma DAG.Effect.acyclic_other {k : DAG} (he : DAG.Effect c g m g' made m') (hk : k.Base m)
    (hac : k.Acyclic m) (hd : ∀ a ∈ k.graph, a ∉ g.graph) : k.Acyclic m' :=
  hac.evolves hk (he.evolves (fun a ha => ⟨hd a ha, hk.lt ha⟩)) (List.Subset.refl _)

lemma Run.sound (run : Run (World.start title config m) es w) (hd : ∀ e ∈ es, e.call.Disconnected) :
    ∀ (i : ℕ) g, w.dags[i]? = some g → (g.Sound w.memory ∧ w.memory.wrapped = false) ∧ g.Acyclic w.memory := by
  refine run.forall_dags (P := fun _ g m => (g.Sound m ∧ m.wrapped = false) ∧ g.Acyclic m)
    (Q := fun c _ _ => c.Disconnected)
    ?_ ?_ (World.apart_start title config m) ?_ (fun e he _ _ => hd e he)
  · intro i c g m g' made m' hc hg hvs hP he
    obtain ⟨hs, hw, hmade⟩ := he.sound hP.1.1 hc.vertices
    have hw' := hw.trans hP.1.2
    refine ⟨⟨⟨hs, hw'⟩, he.acyclic hg hvs hP.2⟩, fun k hk j _ => ⟨⟨hmade k hk, hw'⟩, ?_⟩⟩
    cases he with
    | growth _ => exact absurd hk List.not_mem_nil
    | removal _ => exact absurd hk List.not_mem_nil
    | clone hs =>
      rw [List.mem_singleton.mp hk]
      exact hs.acyclic_of_closed hg hP.1.1.closed hP.2
  · intro i j c g m g' made m' k hc hg hP hk hPk hdis he
    have hw := (he.sound hP.1.1 hc.vertices).2.1.trans hP.1.2
    exact ⟨⟨he.sound_other hP.1.1 hPk.1.1 hdis, hw⟩, he.acyclic_other hk hPk.2 hdis⟩
  · refine World.start_dags (fun _ g m => (g.Sound m ∧ m.wrapped = false) ∧ g.Acyclic m)
      ⟨⟨⟨?_, ?_, ?_, ?_⟩, rfl⟩, DAG.acyclic_nil⟩
    · exact (World.apart_start title config m).base _ List.mem_cons_self
    · exact fun a ha => absurd ha List.not_mem_nil
    · exact fun a ha => absurd ha List.not_mem_nil
    · exact fun a ha => absurd ha List.not_mem_nil

lemma Run.first_acyclic (run : Run (World.start title config m) es w) :
    ∀ (i : ℕ) g, w.dags[i]? = some g → i = 0 → g.Acyclic w.memory := by
  refine run.forall_dags (P := fun i g m => i = 0 → g.Acyclic m) (Q := fun _ _ _ => True)
    ?_ ?_ (World.apart_start title config m) ?_ (fun _ _ _ _ => trivial)
  · intro i c g m g' made m' _ hg hvs hP he
    exact ⟨fun hi => he.acyclic hg hvs (hP hi), fun k _ j hj hj0 => absurd hj0 hj.ne'⟩
  · exact fun i j c g m g' made m' k _ hg _ hk hPk hdis he hj => he.acyclic_other hk (hPk hj) hdis
  · exact World.start_dags (fun i g m => i = 0 → g.Acyclic m) (fun _ => DAG.acyclic_nil)

/-- The graph a run starts with never has a cycle. Neither has a clone, unless the client passes
vertices that have edges already, which a clone finds again by identifier. -/
theorem Run.never_cyclic (run : Run (World.start title config m) es w) :
    (∀ g, w.dags[0]? = some g → g.Acyclic w.memory) ∧
      ((∀ e ∈ es, e.call.Disconnected) → ∀ g ∈ w.dags, g.Acyclic w.memory) := by
  constructor
  · exact fun g hg => run.first_acyclic 0 g hg rfl
  · intro hd g hg
    obtain ⟨i, hi⟩ := List.mem_iff_getElem?.mp hg
    exact (run.sound hd i g hi).2

lemma Run.dags_ne_nil (run : Run (World.start title config m) es w) : w.dags ≠ [] := by
  induction run with
  | start => exact List.cons_ne_nil _ _
  | step _ _ hs _ =>
    obtain ⟨l₁, g, l₂, g', made, -, -, hdags', -⟩ := World.step_cases hs
    simp [hdags']

theorem Run.counters_right (run : Run (World.start title config m) es w)
    (hd : ∀ e ∈ es, e.call.Disconnected) :
    w.memory.wrapped = false ∧ ∀ g ∈ w.dags, (g.graph.map w.memory.uuid).Nodup ∧
      (∀ a ∈ g.graph, (w.memory.targets a).Nodup) ∧
      ∀ a ∈ g.graph, w.memory.count a = inDegree g.graph w.memory.targets a := by
  have hsound : ∀ g ∈ w.dags, g.Sound w.memory ∧ w.memory.wrapped = false := by
    intro g hg
    obtain ⟨i, hi⟩ := List.mem_iff_getElem?.mp hg
    exact (run.sound hd i g hi).1
  constructor
  · obtain ⟨g, hg⟩ := List.exists_mem_of_ne_nil _ run.dags_ne_nil
    exact (hsound g hg).2
  · intro g hg
    have hs := (hsound g hg).1
    exact ⟨hs.nodup.map_on hs.uuids, hs.simple, hs.counted⟩

namespace Sample

def fresh (n : BitVec 128) : DAGVertex Unit Unit := vertex n [] 0 task₁

def start : World Unit Unit := World.start "sample" .null memory

def added : World Unit Unit := (start.step 0 (.addVertex (fresh 1))).get (by decide +kernel)

def both : World Unit Unit := (added.step 0 (.addVertex (fresh 2))).get (by decide +kernel)

def connected : World Unit Unit := (both.step 0 (.connect (fresh 1) (fresh 2))).get (by decide +kernel)

def events : List (Event Unit Unit) :=
  [⟨start, 0, .addVertex (fresh 1)⟩, ⟨added, 0, .addVertex (fresh 2)⟩,
    ⟨both, 0, .connect (fresh 1) (fresh 2)⟩]

lemma fresh_disconnected (n : BitVec 128) : (fresh n).Disconnected := ⟨rfl, rfl⟩

lemma run : Run start events connected := by
  have hadded : Run start [⟨start, 0, .addVertex (fresh 1)⟩] added :=
    Run.start.step (fresh_disconnected 1) (Option.some_get _).symm
  have hboth : Run start [⟨start, 0, .addVertex (fresh 1)⟩, ⟨added, 0, .addVertex (fresh 2)⟩] both :=
    hadded.step (fresh_disconnected 2) (Option.some_get _).symm
  exact hboth.step (c := .connect (fresh 1) (fresh 2)) trivial (Option.some_get _).symm

lemma disconnected : ∀ e ∈ events, e.call.Disconnected := by
  intro e he
  simp only [events, List.mem_cons, List.not_mem_nil, or_false] at he
  rcases he with rfl | rfl | rfl
  · exact fresh_disconnected 1
  · exact fresh_disconnected 2
  · trivial

end Sample

theorem Run.never_cyclic_sample :
    (∀ g, Sample.connected.dags[0]? = some g → g.Acyclic Sample.connected.memory) ∧
      ((∀ e ∈ Sample.events, e.call.Disconnected) →
        ∀ g ∈ Sample.connected.dags, g.Acyclic Sample.connected.memory) :=
  Run.never_cyclic Sample.run

theorem Run.counters_right_sample :
    Sample.connected.memory.wrapped = false ∧ ∀ g ∈ Sample.connected.dags,
      (g.graph.map Sample.connected.memory.uuid).Nodup ∧
      (∀ a ∈ g.graph, (Sample.connected.memory.targets a).Nodup) ∧
      ∀ a ∈ g.graph, Sample.connected.memory.count a =
        inDegree g.graph Sample.connected.memory.targets a :=
  Run.counters_right Sample.run Sample.disconnected

end DagScheduler.Graphs

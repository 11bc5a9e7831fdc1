import DagScheduler.Graphs.Queries
import DagScheduler.GraphProofs.BlueprintProofs
import DagScheduler.GraphProofs.OutsiderProofs

/-! What a client is told about a graph is what its plan says, and asking changes nothing. -/

namespace DagScheduler.Graphs

open Library Library.Programs Library.Plans Library.Digraphs Relation

variable {σ π α β : Type} {m m' : Memory σ π} {g g' : DAG} {a b : Addr} {v w v1 v2 : DAGVertex σ π}
  {u u1 u2 : UUID} {l l1 l2 : String}

/-- The call answers `r`, a fault where that is `none`, and leaves the memory as it was. -/
structure Tells (call : Prog σ π α) (m : Memory σ π) (r : Option α) : Prop where
  answer : (outcome call m).map Prod.fst = r
  untouched : ∀ x m', Returns call m x m' → Untouched m m'

namespace Tells

variable {call : Prog σ π α} {r : Option α} {x : α}

lemma of_returns (h : Returns call m x m') (hm : Untouched m m') : Tells call m (some x) := by
  refine ⟨by rw [h.outcome]; rfl, fun y t hy => ?_⟩
  obtain ⟨rfl, rfl⟩ := hy.unique h
  exact hm

lemma of_fault (h : ∀ x m', ¬ Returns call m x m') : Tells call m none :=
  ⟨by rw [outcome_eq_none h]; rfl, fun x t hx => absurd hx (h x t)⟩

lemma congr {call' : Prog σ π α} (h : ∀ x t, Returns call m x t ↔ Returns call' m x t) :
    Tells call m r ↔ Tells call' m r := by
  have hout : outcome call m = outcome call' m := by
    cases hc : outcome call' m with
    | none => exact outcome_eq_none fun x t hx => by simp [((h x t).mp hx).outcome] at hc
    | some x => exact ((h _ _).mpr (Returns.of_outcome hc)).outcome
  constructor
  · exact fun ht => ⟨hout ▸ ht.answer, fun x t hx => ht.untouched x t ((h x t).mpr hx)⟩
  · exact fun ht => ⟨hout.symm ▸ ht.answer, fun x t hx => ht.untouched x t ((h x t).mp hx)⟩

lemma map (h : Tells call m r) (f : α → β) : Tells (do pure (f (← call))) m (r.map f) := by
  constructor
  · rw [outcome_bind, ← h.answer]
    cases outcome call m <;> rfl
  · intro y t hy
    obtain ⟨x, _, hx, hy⟩ := returns_bind.mp hy
    obtain ⟨-, rfl⟩ := returns_pure.mp hy
    exact h.untouched x _ hx

end Tells

namespace DAG

lemma has_find (hg : g.Sound m) (u : UUID) :
    (g.graph.find? fun a => m.uuid a = some u).isSome = Plan.has (g.draw m) u := by
  rw [Bool.eq_iff_iff, hg.has_draw, List.find?_isSome]
  simp only [decide_eq_true_eq]
  rfl

lemma containsVertexByUuid_tells (hg : g.Sound m) (u : UUID) :
    Tells (g.containsVertexByUuid u) m (some (Plan.has (g.draw m) u)) := by
  rw [← has_find hg]
  exact .of_returns (returns_bind.mpr ⟨_, m, (returns_findVertexByUuid hg.owned).mpr ⟨rfl, rfl⟩,
    returns_pure.mpr ⟨rfl, rfl⟩⟩) (Untouched.refl m)

lemma containsVertexByLabel_tells (hg : g.Sound m) (l : String) :
    Tells (g.containsVertexByLabel l) m (some !(Blueprint.labelled (g.draw m) l).isEmpty) := by
  rw [labelled_draw hg, List.isEmpty_map]
  exact .of_returns (returns_bind.mpr ⟨_, m, (returns_findAll hg.owned).mpr ⟨rfl, rfl⟩,
    returns_pure.mpr ⟨rfl, rfl⟩⟩) (Untouched.refl m)

lemma edgeCount_tells (hg : g.Sound m) :
    Tells g.edgeCount m (some ((g.draw m).map fun n => n.out.length).sum) := by
  have hsum : ((g.draw m).map fun n => n.out.length) = g.graph.map fun a => (m.edges a).length := by
    rw [draw, Plan.draw, List.map_map]
    apply List.map_congr_left
    intro a _
    simp [out_eq]
  rw [hsum]
  exact .of_returns (returns_edgeCount fun a ha => hg.live ha) (Untouched.refl m)

/-! Edges. -/

/-- Every edge is followed, also once the answer is known. -/
lemma anyEdgeTo_follows {es : List DAGEdge} {ret r : Bool} (h : Returns (anyEdgeTo b ret es) m r m') :
    ∀ e ∈ es, ∃ c, m.connection e = some c := by
  induction es generalizing ret with
  | nil => simp
  | cons e es ih =>
    simp only [anyEdgeTo, returns_bind, returns_lock_edge, and_assoc, exists_and_left, exists_eq_left] at h
    cases hc : m.connection e with
    | none => simp [hc] at h
    | some c =>
      rw [hc] at h
      exact List.forall_mem_cons.mpr ⟨⟨c, hc⟩, ih h⟩

lemma dangles_iff (hg : g.Sound m) (ha : a ∈ g.graph) :
    Plan.dangles (g.draw m) (m.name a) = true ↔ ¬ ∀ e ∈ m.edges a, ∃ c, m.connection e = some c := by
  rw [draw, Plan.dangles_draw hg.name_injective ha, out_eq, List.mem_map]
  push Not
  refine exists_congr fun e => and_congr_right fun _ => ?_
  rw [Option.eq_none_iff_forall_ne_some]

lemma returns_areConnected (hg : g.Sound m) {r : Bool} : Returns (g.areConnected v w) m r m' ↔
    ∃ a ∈ g.graph, ∃ b ∈ g.graph, m.uuid a = some v.uuid ∧ m.uuid b = some w.uuid ∧
      Returns (anyEdgeTo b false (m.edges a)) m r m' := by
  simp only [areConnected, returns_bind, returns_findVertex hg.owned, and_assoc, exists_and_left, exists_eq_left]
  constructor
  · intro h
    cases hx : g.graph.find? (fun a => m.uuid a = some v.uuid) with
    | none => simp [hx] at h
    | some a =>
      cases hy : g.graph.find? (fun a => m.uuid a = some w.uuid) with
      | none => simp [hx, hy] at h
      | some b =>
        simp only [hx, hy, returns_bind, returns_deref, and_assoc, exists_and_left, exists_eq_left] at h
        obtain ⟨x, hxa, h⟩ := h
        exact ⟨a, List.mem_of_find?_eq_some hx, b, List.mem_of_find?_eq_some hy, by simpa using List.find?_some hx,
          by simpa using List.find?_some hy, edges_of_vertex hxa ▸ h⟩
  · rintro ⟨a, ha, b, hb, hav, hbw, h⟩
    obtain ⟨x, hx⟩ := Memory.live_iff.mp (hg.live ha)
    simp only [find_uuid hg.uuids ha hav, find_uuid hg.uuids hb hbw, returns_bind, returns_deref, and_assoc,
      exists_and_left, exists_eq_left]
    exact ⟨x, hx, edges_of_vertex hx ▸ h⟩

lemma areConnected_drawn (hg : g.Sound m) (v w : DAGVertex σ π) :
    Tells (g.areConnected v w) m (Blueprint.pointsAt (g.draw m) v.uuid w.uuid) := by
  by_cases hboth : g.Both m v.uuid w.uuid
  · obtain ⟨⟨a, ha, hav⟩, b, hb, hbw⟩ := hboth
    have hva : m.name a = v.uuid := Option.some.inj ((uuid_eq_name (hg.live ha)).symm.trans hav)
    have hwb : m.name b = w.uuid := Option.some.inj ((uuid_eq_name (hg.live hb)).symm.trans hbw)
    have hhas : (Plan.has (g.draw m) v.uuid && Plan.has (g.draw m) w.uuid) = true := by
      rw [Bool.and_eq_true, hg.has_draw, hg.has_draw]
      exact ⟨⟨a, ha, hav⟩, b, hb, hbw⟩
    rw [Blueprint.pointsAt, hhas, Bool.true_and, ← hva, ← hwb]
    by_cases hes : ∀ e ∈ m.edges a, ∃ c, m.connection e = some c
    · have hdangles : Plan.dangles (g.draw m) (m.name a) = false := by
        rw [← Bool.not_eq_true, dangles_iff hg ha]
        exact fun h => h hes
      have hleads : Plan.leads (g.draw m) (m.name a) (m.name b) =
          (false || decide (b ∈ (m.edges a).filterMap m.connection)) := by
        rw [Bool.eq_iff_iff, hg.leads_draw ha hb, Bool.false_or, decide_eq_true_eq]
        exact ⟨fun h => h.2.2, fun h => ⟨ha, hb, h⟩⟩
      rw [hdangles, hleads]
      exact .of_returns ((returns_areConnected hg).mpr ⟨a, ha, b, hb, hav, hbw, (returns_anyEdgeTo hes).mpr ⟨rfl, rfl⟩⟩)
        (Untouched.refl m)
    · rw [(dangles_iff hg ha).mpr hes]
      refine .of_fault fun r m' h => ?_
      obtain ⟨a', ha', b', -, hav', -, h⟩ := (returns_areConnected hg).mp h
      obtain rfl := hg.uuids a' ha' a ha (hav'.trans hav.symm)
      exact hes (anyEdgeTo_follows h)
  · have hhas : (Plan.has (g.draw m) v.uuid && Plan.has (g.draw m) w.uuid) = false := by
      rw [← Bool.not_eq_true, Bool.and_eq_true, hg.has_draw, hg.has_draw]
      exact hboth
    rw [Blueprint.pointsAt, hhas, Bool.false_and]
    refine .of_fault fun r m' h => hboth ?_
    obtain ⟨a, ha, b, hb, hav, hbw, -⟩ := (returns_areConnected hg).mp h
    exact ⟨⟨a, ha, hav⟩, b, hb, hbw⟩

/-- A call by identifiers, where the two are there and where they are not. -/
lemma byUuid_tells {k : DAGVertex σ π → DAGVertex σ π → Prog σ π α} {r : Option α} (hg : g.Sound m)
    (hk : ∀ a ∈ g.graph, ∀ b ∈ g.graph, ∀ v w, m.vertex a = some v → m.vertex b = some w → v.uuid = u1 →
      w.uuid = u2 → Tells (k v w) m r)
    (hnone : (Plan.has (g.draw m) u1 && Plan.has (g.draw m) u2) = false → r = none) :
    Tells (do
      let v1Tmp ← g.findVertexByUuid u1
      let v2Tmp ← g.findVertexByUuid u2
      k (← derefLocked v1Tmp) (← derefLocked v2Tmp)) m r := by
  by_cases hboth : g.Both m u1 u2
  · obtain ⟨a, ha, b, hb, v, w, hv, hw, rfl, rfl⟩ := hboth.vertices hg.owned
    refine (Tells.congr fun x t => ?_).mpr (hk a ha b hb v w hv hw rfl rfl)
    rw [returns_byUuid hg.owned hg.uuids]
    constructor
    · rintro ⟨a', ha', b', hb', v', w', hv', hw', hvu, hwu, h⟩
      obtain rfl := hg.uuids a' ha' a ha (by rw [uuid_of_vertex hv', uuid_of_vertex hv, hvu])
      obtain rfl := hg.uuids b' hb' b hb (by rw [uuid_of_vertex hw', uuid_of_vertex hw, hwu])
      rw [hv, Option.some.injEq] at hv'
      rw [hw, Option.some.injEq] at hw'
      rwa [← hv', ← hw'] at h
    · exact fun h => ⟨a, ha, b, hb, v, w, hv, hw, rfl, rfl, h⟩
  · have hmiss : (Plan.has (g.draw m) u1 && Plan.has (g.draw m) u2) = false := by
      rw [← Bool.not_eq_true, Bool.and_eq_true, hg.has_draw, hg.has_draw]
      exact hboth
    rw [hnone hmiss]
    refine .of_fault fun x t h => hboth ?_
    obtain ⟨a, ha, b, hb, v, w, hv, hw, rfl, rfl, -⟩ := (returns_byUuid hg.owned hg.uuids).mp h
    exact both_of_vertices ha hb hv hw

lemma areConnectedByUuid_drawn (hg : g.Sound m) (u1 u2 : UUID) :
    Tells (g.areConnectedByUuid u1 u2) m (Blueprint.pointsAt (g.draw m) u1 u2) := by
  apply byUuid_tells hg
  · rintro a - b - v w - - rfl rfl
    exact areConnected_drawn hg v w
  · intro hmiss
    rw [Blueprint.pointsAt, hmiss]
    rfl

lemma allPairsConnected_drawn (hg : g.Sound m) {pairs : List (Addr × Addr)} (hpairs : g.Inside pairs) (ret : Bool) :
    Tells (g.allPairsConnected ret pairs) m
      (((pairs.map fun q => (m.name q.1, m.name q.2)).mapM fun q => Blueprint.pointsAt (g.draw m) q.1 q.2).map
        fun bs => ret && bs.all id) := by
  induction pairs generalizing ret with
  | nil => exact .of_returns (returns_pure.mpr ⟨by simp, rfl⟩) (Untouched.refl m)
  | cons q pairs ih =>
    obtain ⟨⟨hx, hy⟩, hpairs⟩ := List.forall_mem_cons.mp hpairs
    obtain ⟨v, hv⟩ := Memory.live_iff.mp (hg.live hx)
    obtain ⟨w, hw⟩ := Memory.live_iff.mp (hg.live hy)
    have hfirst := areConnected_drawn hg v w
    have hcall : outcome (g.allPairsConnected ret (q :: pairs)) m =
        (outcome (g.areConnected v w) m).bind fun r => outcome (g.allPairsConnected (ret && r.1) pairs) r.2 := by
      simp only [allPairsConnected, outcome_bind, (returns_deref.mpr ⟨hv, rfl⟩).outcome,
        (returns_deref.mpr ⟨hw, rfl⟩).outcome, Option.bind_some]
    rw [List.map_cons, List.mapM_cons, name_of_vertex hv, name_of_vertex hw, ← hfirst.answer]
    cases hout : outcome (g.areConnected v w) m with
    | none =>
      refine ⟨by rw [hcall, hout]; rfl, fun x t h => ?_⟩
      rw [h.outcome, hout] at hcall
      exact absurd hcall (by simp)
    | some r =>
      obtain ⟨b, m₁⟩ := r
      obtain ⟨a, -, c, -, -, -, hedges⟩ := (returns_areConnected hg).mp (Returns.of_outcome hout)
      obtain rfl : m₁ = m := ((returns_anyEdgeTo (anyEdgeTo_follows hedges)).mp hedges).2
      rw [hout, Option.bind_some] at hcall
      have hrest := ih hpairs (ret && b)
      constructor
      · rw [hcall, hrest.answer]
        cases (pairs.map fun q => (m₁.name q.1, m₁.name q.2)).mapM fun q => Blueprint.pointsAt (g.draw m₁) q.1 q.2 with
        | none => rfl
        | some bs => simp [Bool.and_assoc]
      · intro x t h
        rw [h.outcome] at hcall
        exact hrest.untouched x t (Returns.of_outcome hcall.symm)

/-! Cycles. -/

lemma Trial.offer (ht : Trial m g' m') (hv : v.Disconnected) :
    ∃ b g'' c m'', Returns (g'.addVertex v) m' (b, g'', c) m'' ∧ Trial m g'' m'' ∧
      c.uuid = Blueprint.leaves (g'.draw m') v.uuid ∧ g''.draw m'' = Plan.add (g'.draw m') v.node := by
  have hg : g'.Sound m' := ht.wellFormed.sound ht.base
  cases hfind : g'.graph.find? (fun a => m'.uuid a = some v.uuid) with
  | some a =>
    have hhas : Plan.has (g'.draw m') v.uuid = true := by
      rw [← has_find hg, hfind]
      rfl
    have hname : Plan.has (g'.draw m') v.node.name = true := hhas
    refine ⟨_, _, _, _, ht.returns_keep hfind, ht, ?_, ?_⟩
    · rw [Blueprint.leaves, if_pos hhas]
    · rw [Plan.add, if_pos hname]
  | none =>
    have hhas : ¬ Plan.has (g'.draw m') v.uuid = true := by
      rw [← has_find hg, hfind]
      exact Bool.false_ne_true
    have hname : ¬ Plan.has (g'.draw m') v.node.name = true := hhas
    refine ⟨_, _, _, _, ht.returns_add hfind, ht.vertex hv hfind, ?_, ?_⟩
    · rw [Blueprint.leaves, if_neg hhas]
      rfl
    · rw [draw_makeShared hg hv, Plan.add, if_neg hname]

variable [TaskStage σ] [TaskCallbackPlugin π]

open Classical in
lemma Trial.tells {gc g₁ g₂ : DAG} {mc m₁ m₂ : Memory σ π} {b₁ b₂ : Bool} {c₁ c₂ : DAGVertex σ π}
    (hc : Returns g.clone m gc mc) (h₁ : Returns (gc.addVertex v1.clone) mc (b₁, g₁, c₁) m₁)
    (h₂ : Returns (g₁.addVertex v2.clone) m₁ (b₂, g₂, c₂) m₂) (ht : Trial m g₂ m₂) :
    Tells (g.connectionWouldMakeCyclic v1 v2) m
      (if Plan.has (g₂.draw m₂) c₁.uuid && Plan.has (g₂.draw m₂) c₂.uuid then
        some (decide (Plan.Reaches (g₂.draw m₂) c₂.uuid c₁.uuid)) else none) := by
  have hg : g₂.Sound m₂ := ht.wellFormed.sound ht.base
  by_cases hboth : g₂.Both m₂ c₁.uuid c₂.uuid
  · have hhas : (Plan.has (g₂.draw m₂) c₁.uuid && Plan.has (g₂.draw m₂) c₂.uuid) = true := by
      rw [Bool.and_eq_true, hg.has_draw, hg.has_draw]
      exact hboth
    obtain ⟨a, ha, b, hb, v, w, hv, hw, hvc, hwc⟩ := hboth.vertices hg.owned
    have hx := find_uuid hg.uuids ha ((uuid_of_vertex hv).trans (congrArg some hvc))
    have hy := find_uuid hg.uuids hb ((uuid_of_vertex hw).trans (congrArg some hwc))
    obtain ⟨r, m', hr, hm, hiff⟩ := check_found hc h₁ h₂ ht hx hy
    have hreach : r = decide (Plan.Reaches (g₂.draw m₂) c₂.uuid c₁.uuid) := by
      rw [Bool.eq_iff_iff, hiff, decide_eq_true_eq, ← hvc, ← hwc, ← name_of_vertex hv, ← name_of_vertex hw,
        hg.reaches_draw hb ha]
      rfl
    rw [if_pos hhas, ← hreach]
    exact .of_returns hr hm
  · have hhas : ¬ (Plan.has (g₂.draw m₂) c₁.uuid && Plan.has (g₂.draw m₂) c₂.uuid) = true := by
      rw [Bool.and_eq_true, hg.has_draw, hg.has_draw]
      exact hboth
    rw [if_neg hhas]
    refine .of_fault fun r m' => check_missing hc h₁ h₂ ht ?_ r
    exact (not_and_or.mp hboth).imp find_of_not_has find_of_not_has

/-- The copy that is searched takes no stale edge. -/
lemma search_resolves (hg : g.Sound m) {r : Bool} (h : Returns (g.connectionWouldMakeCyclic v w) m r m') :
    g.Resolves m := by
  rw [connectionWouldMakeCyclic, returns_bind] at h
  obtain ⟨k, _, hclone, -⟩ := h
  exact (clone_resolves hg.owned hg.uuids hg.known hclone).1

lemma connectionWouldMakeCyclic_drawn (hg : g.Sound m) (hac : g.Acyclic m) (v1 v2 : DAGVertex σ π) :
    Tells (g.connectionWouldMakeCyclic v1 v2) m (Blueprint.closes (g.draw m) v1 v2) := by
  by_cases hres : g.Resolves m
  · obtain ⟨gc, mc, hc, hclone⟩ := clone_returns hg.owned hg.uuids hg.known hg.config hres
    have hwf := hg.wellFormed hres
    obtain ⟨b₁, g₁, c₁, m₁, h₁, ht₁, hc₁, hd₁⟩ := (hclone.trial hwf hac).offer (v := v1.clone) ⟨rfl, rfl⟩
    obtain ⟨b₂, g₂, c₂, m₂, h₂, ht₂, hc₂, hd₂⟩ := ht₁.offer (v := v2.clone) ⟨rfl, rfl⟩
    -- The copy has the names and the edges of the plan, and so it goes on.
    have hadd (p : Blueprint σ π) (v : DAGVertex σ π) :
        Plan.add (Blueprint.clone p) v.clone.node = Blueprint.clone (Plan.add p v.node) :=
      (Plan.relabel_add Card.clone p v.node).symm
    have hleaves (p : Blueprint σ π) (u : UUID) : Blueprint.leaves (Blueprint.clone p) u = Blueprint.leaves p u := by
      rw [Blueprint.leaves, Blueprint.leaves, Blueprint.clone, Plan.has_relabel]
    rw [draw_isClone hwf hclone] at hc₁ hd₁
    rw [hadd] at hd₁
    rw [hd₁] at hc₂ hd₂
    rw [hadd] at hd₂
    have hu₁ : c₁.uuid = Blueprint.leaves (g.draw m) v1.uuid := hc₁.trans (hleaves _ _)
    have hu₂ : c₂.uuid = Blueprint.leaves (Plan.add (g.draw m) v1.node) v2.uuid := hc₂.trans (hleaves _ _)
    have hfresh : ¬ Plan.stale (g.draw m) = true := fun h => hg.stale_draw.mp h hres
    have htells := Trial.tells hc h₁ h₂ ht₂
    rw [hd₂, hu₁, hu₂, Blueprint.clone, Plan.has_relabel, Plan.has_relabel, Plan.reaches_relabel] at htells
    rwa [Blueprint.closes, if_neg hfresh]
  · have hplan : Blueprint.closes (g.draw m) v1 v2 = none := if_pos (hg.stale_draw.mpr hres)
    rw [hplan]
    exact .of_fault fun r m' h => hres (search_resolves hg h)

open Classical in
omit [TaskStage σ] [TaskCallbackPlugin π] in
lemma closes_of_has {p : Blueprint σ π} (h1 : Plan.has p v1.uuid = true) (h2 : Plan.has p v2.uuid = true) :
    Blueprint.closes p v1 v2 =
      if Plan.stale p then none else some (decide (Plan.Reaches p v2.uuid v1.uuid)) := by
  have hadd {v : DAGVertex σ π} (h : Plan.has p v.uuid = true) : Plan.add p v.node = p := if_pos h
  have hleaves {u : UUID} (h : Plan.has p u = true) : Blueprint.leaves p u = u := if_pos h
  simp only [Blueprint.closes, hadd h1, hadd h2, hleaves h1, hleaves h2, h1, h2, Bool.and_self, if_true]

open Classical in
lemma connectionWouldMakeCyclicByUuid_drawn (hg : g.Sound m) (hac : g.Acyclic m) (u1 u2 : UUID) :
    Tells (g.connectionWouldMakeCyclicByUuid u1 u2) m
      (if Plan.has (g.draw m) u1 && Plan.has (g.draw m) u2 && !Plan.stale (g.draw m) then
        some (decide (Plan.Reaches (g.draw m) u2 u1)) else none) := by
  apply byUuid_tells hg
  · rintro a ha b hb v w hv hw rfl rfl
    have h1 : Plan.has (g.draw m) v.uuid = true := hg.has_draw.mpr ⟨a, ha, uuid_of_vertex hv⟩
    have h2 : Plan.has (g.draw m) w.uuid = true := hg.has_draw.mpr ⟨b, hb, uuid_of_vertex hw⟩
    have htells := connectionWouldMakeCyclic_drawn hg hac v w
    rw [closes_of_has h1 h2] at htells
    rw [h1, h2, Bool.and_self, Bool.true_and]
    cases hstale : Plan.stale (g.draw m) with
    | false =>
      rw [hstale] at htells
      exact htells
    | true =>
      rw [hstale] at htells
      exact htells
  · intro hmiss
    rw [hmiss]
    rfl

lemma noneWouldMakeCyclic_drawn (hg : g.Sound m) (hac : g.Acyclic m) {pairs : List (Addr × Addr)}
    (hpairs : g.Inside pairs) : Tells (g.noneWouldMakeCyclic pairs) m
      (Blueprint.noneCloses (g.draw m) (pairs.map fun q => (m.name q.1, m.name q.2))) := by
  cases pairs with
  | nil => exact .of_returns (returns_pure.mpr ⟨rfl, rfl⟩) (Untouched.refl m)
  | cons q pairs =>
    obtain ⟨hx, hy⟩ := hpairs _ List.mem_cons_self
    rw [Blueprint.noneCloses, if_neg (by simp)]
    by_cases hres : g.Resolves m
    · obtain ⟨r, m', hr, hm, hiff⟩ := noneWouldMakeCyclic_returns (hg.wellFormed hres) hac hpairs
      have hall : r = ((q :: pairs).map fun q => (m.name q.1, m.name q.2)).all
          fun q => !(@decide (Plan.Reaches (g.draw m) q.2 q.1) (Classical.propDecidable _)) := by
        rw [Bool.eq_iff_iff, hiff, List.all_map, List.all_eq_true]
        refine forall₂_congr fun p hp => ?_
        obtain ⟨ha, hb⟩ := hpairs p hp
        rw [Function.comp_apply, Bool.not_eq_true', decide_eq_false_iff_not, hg.reaches_draw hb ha]
        rfl
      rw [if_neg fun h => hg.stale_draw.mp h hres, ← hall]
      exact .of_returns hr hm
    · rw [if_pos (hg.stale_draw.mpr hres)]
      refine .of_fault fun r m' h => hres ?_
      simp only [noneWouldMakeCyclic, returns_bind, returns_deref] at h
      obtain ⟨v, _, ⟨-, rfl⟩, w, _, ⟨-, rfl⟩, _, _, hcheck, -⟩ := h
      exact search_resolves hg hcheck

omit [TaskStage σ] [TaskCallbackPlugin π] in
/-- A call by labels, on the pairs that have them. -/
lemma byLabel_tells {k : List Addr → List Addr → Prog σ π α} {r : Option α} (hg : g.Sound m)
    (hk : Tells (k (g.labelled m l1) (g.labelled m l2)) m r) :
    Tells (do k (← g.findAllVerticiesWithLabel l1) (← g.findAllVerticiesWithLabel l2)) m r :=
  (Tells.congr fun _ _ => returns_labels hg.owned).mpr hk

omit [TaskStage σ] [TaskCallbackPlugin π] in
lemma labelPairs_drawn (hg : g.Sound m) (l1 l2 : String) :
    (g.labelPairs m l1 l2).map (fun q => (m.name q.1, m.name q.2)) =
      (Blueprint.labelled (g.draw m) l1).product (Blueprint.labelled (g.draw m) l2) := by
  rw [labelled_draw hg, labelled_draw hg, Lists.product_map]
  rfl

lemma ask_drawn (hg : g.Sound m) (hac : g.Acyclic m) (q : Query σ π) :
    Tells (q.ask g) m (Blueprint.ask (g.draw m) q) := by
  cases q with
  | containsVertex v => exact (containsVertexByUuid_tells hg v.uuid).map Finding.flag
  | containsVertexByUuid u => exact (containsVertexByUuid_tells hg u).map Finding.flag
  | containsVertexByLabel l => exact (containsVertexByLabel_tells hg l).map Finding.flag
  | vertexCount =>
    have hlength : (g.draw m).length = g.graph.length := List.length_map _
    rw [Blueprint.ask, hlength]
    exact .of_returns (returns_pure.mpr ⟨rfl, rfl⟩) (Untouched.refl m)
  | edgeCount => exact (edgeCount_tells hg).map Finding.count
  | areConnected v1 v2 => exact (areConnected_drawn hg v1 v2).map Finding.flag
  | areConnectedByUuid u1 u2 => exact (areConnectedByUuid_drawn hg u1 u2).map Finding.flag
  | allAreConnectedByLabel l1 l2 =>
    have hpairs := allPairsConnected_drawn hg (inside_labelPairs : g.Inside (g.labelPairs m l1 l2))
      (!(g.labelled m l1).isEmpty && !(g.labelled m l2).isEmpty)
    have hempty (l : String) : (g.labelled m l).isEmpty = (Blueprint.labelled (g.draw m) l).isEmpty := by
      rw [labelled_draw hg, List.isEmpty_map]
      rfl
    rw [Blueprint.ask, Blueprint.allPointAt, ← hempty, ← hempty, ← labelPairs_drawn hg]
    exact (byLabel_tells hg hpairs).map Finding.flag
  | connectionWouldMakeCyclic v1 v2 => exact (connectionWouldMakeCyclic_drawn hg hac v1 v2).map Finding.flag
  | connectionWouldMakeCyclicByUuid u1 u2 =>
    have htells := (connectionWouldMakeCyclicByUuid_drawn hg hac u1 u2).map Finding.flag
    rw [Blueprint.ask]
    split_ifs with hfound
    · rwa [if_pos hfound] at htells
    · rwa [if_neg hfound] at htells
  | connectionWouldMakeCyclicByLabel l1 l2 =>
    have hpairs := noneWouldMakeCyclic_drawn hg hac (inside_labelPairs : g.Inside (g.labelPairs m l1 l2))
    rw [labelPairs_drawn hg] at hpairs
    exact (byLabel_tells hg hpairs).map Finding.flag

end DAG

variable [TaskStage σ] [TaskCallbackPlugin π] {x : World σ π} {es : List (Event σ π)} {i : ℕ} {title : String}
  {config : Document}

/-- At any point of a run, what a client is told about a graph is what its plan says; asking leaves all
graphs and plans as they are. -/
theorem Run.queries_told (run : Run (World.start title config m) es x) (hd : ∀ e ∈ es, e.call.Disconnected)
    (hi : x.dags[i]? = some g) (q : Query σ π) :
    (outcome (q.ask g) x.memory).map Prod.fst = Blueprint.ask (g.draw x.memory) q ∧
      ∀ r m', Returns (q.ask g) x.memory r m' → Untouched x.memory m' ∧ (World.mk x.dags m').draw = x.draw := by
  obtain ⟨hg, hac⟩ := run.sound_world hd g (List.mem_of_getElem? hi)
  have htells := DAG.ask_drawn hg hac q
  refine ⟨htells.answer, fun r m' h => ?_⟩
  have hm := htells.untouched r m' h
  exact ⟨hm, List.map_congr_left fun k _ => DAG.draw_congr hm.vertex k⟩

theorem Run.queries_told_sample : ∃ g, Sample.connected.dags[0]? = some g ∧ ∀ q : Query Unit Unit,
    (outcome (q.ask g) Sample.connected.memory).map Prod.fst =
        Blueprint.ask (g.draw Sample.connected.memory) q ∧
      ∀ r m', Returns (q.ask g) Sample.connected.memory r m' →
        Untouched Sample.connected.memory m' ∧ (World.mk Sample.connected.dags m').draw = Sample.connected.draw := by
  have hsome : Sample.connected.dags[0]?.isSome = true := by decide +kernel
  obtain ⟨g, hg⟩ := Option.isSome_iff_exists.mp hsome
  exact ⟨g, hg, Run.queries_told Sample.run Sample.disconnected hg⟩

end DagScheduler.Graphs

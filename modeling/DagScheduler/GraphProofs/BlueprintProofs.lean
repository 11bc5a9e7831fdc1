import DagScheduler.Graphs.Blueprint
import DagScheduler.Library.Lists
import DagScheduler.GraphProofs.LookupProofs
import DagScheduler.GraphProofs.RunProofs

/-! The code keeps to the plan: each call of a client answers what the plan says, fails where the plan
has no step, and leaves graphs whose plans are the ones the call makes. -/

namespace DagScheduler.Graphs

open Library Library.Programs Library.Plans Library.Digraphs Relation

variable {σ π : Type} {m m' : Memory σ π} {g g' h : DAG} {a b c : Addr} {v w : DAGVertex σ π} {u u1 u2 : UUID}

lemma uuid_eq_name (h : m.Live a) : m.uuid a = some (m.name a) := by
  obtain ⟨v, hv⟩ := Memory.live_iff.mp h
  simp [Memory.name, Memory.uuid, hv]

lemma name_of_vertex (hv : m.vertex a = some v) : m.name a = v.uuid := by simp [Memory.name, hv]

lemma card_of_vertex (hv : m.vertex a = some v) : m.card a = v.card := by simp [Memory.card, hv]

lemma out_eq : m.out a = (m.edges a).map m.connection := rfl

lemma mem_out : some b ∈ m.out a ↔ b ∈ m.targets a := by
  simp [out_eq, Memory.targets]

lemma out_count (b : Addr) : (m.out a).count (some b) = (m.targets a).count b := by
  rw [out_eq, Memory.targets]
  induction m.edges a with
  | nil => rfl
  | cons e es ih => cases hc : m.connection e <;> simp [List.count_cons, hc, ih]

lemma name_of_uuid {m₁ m₂ : Memory σ π} (h : m₂.uuid b = m₁.uuid a) : m₂.name b = m₁.name a := by
  have hname (m : Memory σ π) (a : Addr) : m.name a = (m.uuid a).getD .null := rfl
  rw [hname, hname, h]

lemma name_of_core (hcore : (m'.vertex a).map DAGVertex.core = (m.vertex a).map DAGVertex.core) :
    m'.name a = m.name a := name_of_uuid (uuid_of_core hcore)

lemma card_of_core (hcore : (m'.vertex a).map DAGVertex.core = (m.vertex a).map DAGVertex.core) :
    m'.card a = m.card a := by
  have h := congrArg (Option.map DAGVertex.card) hcore
  rw [Option.map_map, Option.map_map] at h
  exact congrArg (fun c => Option.getD c ⟨.invalid, "", none⟩) h

namespace DAG

namespace Sound

lemma name_injective (hg : g.Sound m) : ∀ a ∈ g.graph, ∀ b ∈ g.graph, m.name a = m.name b → a = b := by
  intro a ha b hb hab
  apply hg.uuids a ha b hb
  rw [uuid_eq_name (hg.live ha), uuid_eq_name (hg.live hb), hab]

lemma out_inside (hg : g.Sound m) : ∀ a ∈ g.graph, ∀ b, some b ∈ m.out a → b ∈ g.graph :=
  fun a ha b hb => hg.closed a ha b (mem_out.mp hb)

lemma has_draw (hg : g.Sound m) : Plan.has (g.draw m) u = true ↔ g.Has m u := by
  rw [draw, Plan.has_draw]
  constructor
  · rintro ⟨a, ha, rfl⟩
    exact ⟨a, ha, uuid_eq_name (hg.live ha)⟩
  · rintro ⟨a, ha, hau⟩
    rw [uuid_eq_name (hg.live ha), Option.some.injEq] at hau
    exact ⟨a, ha, hau⟩

lemma stale_draw (hg : g.Sound m) : Plan.stale (g.draw m) = true ↔ ¬ g.Resolves m := by
  rw [draw, Plan.stale_draw]
  constructor
  · rintro ⟨a, ha, hnone⟩ hres
    obtain ⟨e, he, hc⟩ := List.mem_map.mp (out_eq ▸ hnone)
    have hsome := hres a ha e he
    simp [resolve, hc] at hsome
  · intro hno
    simp only [Resolves, not_forall] at hno
    obtain ⟨a, ha, e, he, hres⟩ := hno
    refine ⟨a, ha, out_eq ▸ List.mem_map.mpr ⟨e, he, ?_⟩⟩
    cases hc : m.connection e with
    | none => rfl
    | some b =>
      obtain ⟨hconn, hlive⟩ := connection_eq_some.mp hc
      have hb : b ∈ g.graph := hg.closed a ha b (mem_targets.mpr ⟨e, he, hconn, hlive⟩)
      rw [resolve, hc, Option.bind_some, find_uuid hg.uuids hb rfl] at hres
      exact absurd rfl hres

lemma wellFormed (hg : g.Sound m) (hres : g.Resolves m) : g.WellFormed m where
  nodup := hg.nodup
  live _ ha := hg.live ha
  inside a ha e he := by
    obtain ⟨b, hb⟩ := Option.isSome_iff_exists.mp (hres a ha e he)
    obtain ⟨c, hc, -⟩ := Option.bind_eq_some_iff.mp hb
    obtain ⟨hconn, hlive⟩ := connection_eq_some.mp hc
    exact ⟨c, hg.closed a ha c (mem_targets.mpr ⟨e, he, hconn, hlive⟩), hconn⟩
  uuids := hg.uuids
  config := hg.config
  counted := hg.counted
  simple := hg.simple

lemma leads_draw (hg : g.Sound m) (ha : a ∈ g.graph) (hb : b ∈ g.graph) :
    Plan.leads (g.draw m) (m.name a) (m.name b) = true ↔ g.Connected m a b := by
  rw [draw, Plan.leads_draw hg.name_injective hg.out_inside ha hb, mem_out]
  exact ⟨fun h => ⟨ha, hb, h⟩, fun h => h.2.2⟩

lemma reaches_draw (hg : g.Sound m) (ha : a ∈ g.graph) (hb : b ∈ g.graph) :
    Plan.Reaches (g.draw m) (m.name a) (m.name b) ↔ ReflTransGen (g.Connected m) a b := by
  have hedge : (fun x y => x ∈ g.graph ∧ some y ∈ m.out x) = g.Connected m := by
    funext x y
    simp only [mem_out, connected_iff hg.closed, Edge]
  rw [draw, Plan.reaches_draw hg.name_injective hg.out_inside ha hb, hedge]

lemma degree_draw (hg : g.Sound m) (ha : a ∈ g.graph) : Plan.degree (g.draw m) (m.name a) = m.count a := by
  rw [draw, Plan.degree_draw hg.name_injective hg.out_inside ha, hg.counted a ha, inDegree]
  induction g.graph with
  | nil => rfl
  | cons x xs ih => simp only [List.flatMap_cons, List.count_append, out_count, ih]

end Sound

/-! What each change makes of the plan. -/

lemma draw_congr (hv : ∀ a, m'.vertex a = m.vertex a) (g : DAG) : g.draw m' = g.draw m := by
  have hvertex : m'.vertex = m.vertex := funext hv
  have hname : m'.name = m.name := by
    funext a
    simp only [Memory.name, hvertex]
  have hcard : m'.card = m.card := by
    funext a
    simp only [Memory.card, hvertex]
  have hout : m'.out = m.out := by
    funext a
    simp only [Memory.out, hvertex]
  rw [draw, draw, hname, hcard, hout]

lemma draw_addEdge (hg : g.Sound m) (ha : a ∈ g.graph) (hb : b ∈ g.graph) :
    g.draw (m.addEdge a b) = Plan.link (g.draw m) (m.name a) (m.name b) := by
  have hf := Frame.addEdge m a b
  have hname : (m.addEdge a b).name = m.name := funext fun c => name_of_core (hf.core c)
  have hcard : (m.addEdge a b).card = m.card := funext fun c => card_of_core (hf.core c)
  rw [draw, hname, hcard]
  apply Plan.draw_link hg.name_injective ha
  · rw [out_eq, funext hf.connection, edges_addEdge_self (hg.live ha), List.map_append]
    have hnew : m.connection ⟨m.entropy 0, .initialized, some b⟩ = some b := connection_eq_some.mpr ⟨rfl, hg.live hb⟩
    rw [List.map_singleton, hnew]
    rfl
  · intro c _ hca
    rw [out_eq, funext hf.connection, edges_addEdge_ne m a b hca]
    rfl

/-- The vertices of a graph that nothing was done to. -/
lemma Sound.draw_of_cells (hg : g.Sound m) (he : Evolves g.graph m m')
    (hcell : ∀ a ∈ g.graph, m'.vertices.cell a = m.vertices.cell a) : g.draw m' = g.draw m := by
  have hvertex (a : Addr) (ha : a ∈ g.graph) : m'.vertex a = m.vertex a := SharedHeap.value_of_cell_eq (hcell a ha)
  have hname (a : Addr) (ha : a ∈ g.graph) : m'.name a = m.name a := by
    rw [Memory.name, hvertex a ha]
    rfl
  refine Plan.draw_congr hname (fun a ha => ?_) fun a ha => ?_
  · rw [Memory.card, hvertex a ha]
    rfl
  · rw [out_eq, out_eq, he.edges a ha, List.map_map, List.map_map]
    apply List.map_congr_left
    intro e hea
    have hconn : m'.connection e = m.connection e := by
      apply Option.ext
      intro c
      rw [connection_eq_some, connection_eq_some]
      refine and_congr_right fun hec => ⟨he.live c (hg.known a ha e hea c hec), fun hl => ?_⟩
      have hc := hg.closed a ha c (mem_targets.mpr ⟨e, hea, hec, hl⟩)
      rw [Memory.Live, hvertex c hc]
      exact hl
    rw [Function.comp_apply, Function.comp_apply, hconn]
    cases hec : m.connection e with
    | none => rfl
    | some c =>
      obtain ⟨hc, hl⟩ := connection_eq_some.mp hec
      rw [Option.map_some, Option.map_some, hname c (hg.closed a ha c (mem_targets.mpr ⟨e, hea, hc, hl⟩))]

lemma draw_makeShared (hg : g.Sound m) (hv : v.Disconnected) :
    draw { g with graph := g.graph ++ [m.vertices.next] } { m with vertices := m.vertices.makeShared v } =
      g.draw m ++ [v.node] := by
  have hkept := kept_makeShared m v
  have hold : g.draw { m with vertices := m.vertices.makeShared v } = g.draw m :=
    hg.draw_of_cells (.of_kept hkept fun a ha => hg.lt ha) fun a ha => hkept.cell a (hg.lt ha)
  have hnew := vertex_makeShared_self m v
  rw [draw, Plan.draw_append]
  refine congrArg₂ _ hold ?_
  rw [name_of_vertex hnew, card_of_vertex hnew, out_eq, edges_of_vertex hnew, hv.edges]
  rfl

lemma draw_removal (hg : g.Sound m) {p : Addr → Bool} {q : Node UUID (Card σ π) → Bool}
    (hr : Removal g m (g.graph.filter p) m')
    (hq : ∀ a ∈ g.graph, q ⟨m.name a, m.card a, (m.out a).map (Option.map m.name)⟩ = p a) :
    draw { g with graph := g.graph.filter fun a => !p a } m' = Plan.without (g.draw m) q := by
  rw [draw, draw, ← Plan.draw_without hg.name_injective hg.out_inside hq]
  have hmem (a : Addr) (ha : a ∈ g.graph.filter fun a => !p a) : a ∈ g.graph ∧ a ∉ g.graph.filter p := by
    obtain ⟨hag, hp⟩ := List.mem_filter.mp ha
    exact ⟨hag, fun har => by simp [(List.mem_filter.mp har).2] at hp⟩
  refine Plan.draw_congr (fun a ha => name_of_core (hr.core a (hmem a ha).2))
    (fun a ha => card_of_core (hr.core a (hmem a ha).2)) fun a ha => ?_
  obtain ⟨hag, har⟩ := hmem a ha
  rw [out_eq, out_eq, hr.edges a har, List.map_map, List.map_map, List.map_map]
  apply List.map_congr_left
  intro e he
  simp only [Function.comp_apply]
  cases hec : m.connection e with
  | none =>
    have hnone : m'.connection e = none := by
      apply Option.eq_none_iff_forall_not_mem.mpr
      intro c hc
      obtain ⟨hconn, hl⟩ := connection_eq_some.mp hc
      have hsome := connection_eq_some.mpr ⟨hconn, (hr.live.mp hl).1⟩
      simp [hec] at hsome
    rw [hnone]
    rfl
  | some c =>
    obtain ⟨hconn, hl⟩ := connection_eq_some.mp hec
    have hc : c ∈ g.graph := hg.closed a hag c (mem_targets.mpr ⟨e, he, hconn, hl⟩)
    cases hp : p c with
    | true =>
      have hnone : m'.connection e = none := by
        simp [Memory.connection, hconn, Memory.vertex, SharedHeap.value, hr.dead c (List.mem_filter.mpr ⟨hc, hp⟩)]
      simp [hnone, hp]
    | false =>
      have hcr : c ∉ g.graph.filter p := fun h => by simp [(List.mem_filter.mp h).2] at hp
      have hsome : m'.connection e = some c := connection_eq_some.mpr ⟨hconn, hr.live.mpr ⟨hl, hcr⟩⟩
      simp [hsome, hp, name_of_core (hr.core c hcr)]

lemma Clonable.out_eq (hg : g.Clonable m) (ha : a ∈ g.graph) : m.out a = (m.targets a).map some := by
  rw [Graphs.out_eq, Memory.targets, List.map_filterMap]
  have hes : ∀ e ∈ m.edges a, ∃ c, m.connection e = some c := fun e he => by
    obtain ⟨c, -, -, hc⟩ := hg.connection ha he
    exact ⟨c, hc⟩
  rw [← List.filterMap_eq_map]
  apply List.filterMap_congr
  intro e he
  obtain ⟨c, hc⟩ := hes e he
  simp [hc]

variable [TaskStage σ] [TaskCallbackPlugin π]

lemma draw_isClone {φ : Addr → Addr} (hg : g.WellFormed m) (hk : IsClone g m φ h m') :
    h.draw m' = Blueprint.clone (g.draw m) := by
  have hname (a : Addr) (ha : a ∈ g.graph) : m'.name (φ a) = m.name a :=
    name_of_uuid (hk.copied.uuid ha (hg.live a ha))
  have hout (a : Addr) (ha : a ∈ g.graph) :
      (m'.out (φ a)).map (Option.map m'.name) = (m.out a).map (Option.map m.name) := by
    have hφ : φ a ∈ h.graph := hk.graph ▸ List.mem_map_of_mem ha
    rw [hk.wellFormed.toClonable.out_eq hφ, hg.toClonable.out_eq ha, hk.targets_eq hg ha]
    simp only [List.map_map]
    apply List.map_congr_left
    intro b hb
    exact congrArg some (hname b (hg.inside.closed a ha b hb))
  rw [draw, hk.graph, Plan.draw_map hname hout, Blueprint.clone, Plan.relabel]
  refine Eq.trans ?_ (List.map_map (l := g.graph)).symm
  apply List.map_congr_left
  intro a ha
  obtain ⟨w, hw⟩ := Memory.live_iff.mp (hg.live a ha)
  obtain ⟨v, hv, hcore⟩ := Option.map_eq_some_iff.mp (hk.copied.copy a ha w hw)
  have hcard : m'.card (φ a) = w.clone.card := by
    rw [card_of_vertex hv, ← hcore]
    rfl
  simp only [Function.comp_apply, hcard, card_of_vertex hw]
  rfl

/-! What `connect` and its relatives answer. -/

/-- The search for a cycle clones the graph, which takes no stale edge. -/
lemma connect_inv (hg : g.Sound m) (hboth : g.Both m v.uuid w.uuid) {reply : Reply σ π}
    (hr : Returns (g.connect v w) m reply m') :
    g.Resolves m ∧ ∀ e, reply = .error e → e.v1.uuid = v.uuid ∧ e.v2.uuid = w.uuid := by
  obtain ⟨a, ha, b, hb, va, wb, hva, hwb, hv, hw⟩ := hboth.vertices hg.owned
  have hfind {x : DAGVertex σ π} {a : Addr} {va : DAGVertex σ π} (ha : a ∈ g.graph) (hva : m.vertex a = some va)
      (hx : va.uuid = x.uuid) : g.graph.find? (fun a => m.uuid a = some x.uuid) = some a :=
    find_uuid hg.uuids ha ((uuid_of_vertex hva).trans (congrArg some hx))
  simp only [connect, returns_bind, returns_findVertex hg.owned, hfind ha hva hv, hfind hb hwb hw, and_assoc,
    exists_and_left, exists_eq_left, ha, hb, and_self, if_true, returns_deref] at hr
  obtain ⟨v', hv', w', hw', r, m₁, hcheck, hr⟩ := hr
  have hm := (connectionWouldMakeCyclic_unique hg.owned hg.uuids hg.known ha hb hv' hw' hcheck).1
  rw [connectionWouldMakeCyclic, returns_bind] at hcheck
  obtain ⟨k, _, hclone, -⟩ := hcheck
  refine ⟨(clone_resolves hg.owned hg.uuids hg.known hclone).1, ?_⟩
  rintro e rfl
  cases r with
  | false =>
    simp only [Bool.false_eq_true, if_false, returns_bind, returns_pure] at hr
    obtain ⟨_, _, -, hno, -⟩ := hr
    exact absurd hno (by simp)
  | true =>
    simp only [if_true, returns_bind, returns_deref, returns_pure] at hr
    obtain ⟨x, _, ⟨hx, rfl⟩, y, _, ⟨hy, rfl⟩, he, -⟩ := hr
    rw [hm.vertex, hva, Option.some.injEq] at hx
    rw [hm.vertex, hwb, Option.some.injEq] at hy
    obtain rfl := Except.error.inj he
    rw [← hx, ← hy]
    exact ⟨hv, hw⟩

lemma connect_drawn (hg : g.Sound m) (hac : g.Acyclic m) (v w : DAGVertex σ π) :
    (outcome (g.connect v w) m).map (fun r => (Reply.draw r.1, g.draw r.2)) =
      Plan.connect (g.draw m) v.uuid w.uuid := by
  by_cases hboth : g.Both m v.uuid w.uuid
  · have hhas : (Plan.has (g.draw m) v.uuid && Plan.has (g.draw m) w.uuid) = true := by
      rw [Bool.and_eq_true, hg.has_draw, hg.has_draw]
      exact hboth
    rw [Plan.connect, if_pos hhas]
    by_cases hres : g.Resolves m
    · have hwf := hg.wellFormed hres
      have hfresh : ¬ Plan.stale (g.draw m) = true := fun h => hg.stale_draw.mp h hres
      obtain ⟨a, ha, b, hb, va, wb, hva, hwb, hv, hw⟩ := hboth.vertices hg.owned
      have hav : m.uuid a = some v.uuid := (uuid_of_vertex hva).trans (congrArg some hv)
      have hbw : m.uuid b = some w.uuid := (uuid_of_vertex hwb).trans (congrArg some hw)
      obtain ⟨reply, m', hr, hc⟩ := connect_connects hwf hac ha hb hav hbw
      rw [if_neg hfresh, hr.outcome, Option.map_some, ← hv, ← hw, ← name_of_vertex hva, ← name_of_vertex hwb,
        hg.reaches_draw hb ha]
      cases hc with
      | refused e _ closes untouched =>
        obtain ⟨he1, he2⟩ := (connect_inv hg hboth hr).2 e rfl
        have hback : ReflTransGen (g.Connected m) b a := closes
        rw [if_pos hback, draw_congr untouched.vertex, name_of_vertex hva, name_of_vertex hwb, hv, hw, ← he1, ← he2]
        rfl
      | present _ safe old untouched =>
        have hback : ¬ ReflTransGen (g.Connected m) b a := safe
        rw [if_neg hback, if_pos ((hg.leads_draw ha hb).mpr old), draw_congr untouched.vertex]
        rfl
      | added m₁ safe new untouched =>
        have hsound : g.Sound m₁ := (untouched.wellFormed hwf).sound
          (hg.toBase.grow (by simp) (.untouched untouched : Grow [] (g, m) (g, m₁)))
        have hname (c : Addr) : m₁.name c = m.name c := name_of_uuid (untouched.uuid c)
        have hback : ¬ ReflTransGen (g.Connected m) b a := safe
        rw [if_neg hback, if_neg (fun h => new ((hg.leads_draw ha hb).mp h)), draw_addEdge hsound ha hb,
          draw_congr untouched.vertex, hname, hname]
        rfl
    · rw [if_pos (hg.stale_draw.mpr hres), outcome_eq_none, Option.map_none]
      exact fun reply m' hr => hres (connect_inv hg hboth hr).1
  · have hhas : ¬ (Plan.has (g.draw m) v.uuid && Plan.has (g.draw m) w.uuid) = true := by
      rw [Bool.and_eq_true, hg.has_draw, hg.has_draw]
      exact hboth
    rw [Plan.connect, if_neg hhas, (connect_missing hg.owned (not_both hboth)).outcome]
    rfl

/-- A graph without removed targets in sight goes on being one, whatever is connected. -/
lemma connect_keeps (hg : g.Sound m) (hac : g.Acyclic m) {reply : Reply σ π}
    (hr : Returns (g.connect v w) m reply m') :
    g.Sound m' ∧ g.Acyclic m' ∧ ∀ c, m'.uuid c = m.uuid c := by
  have hs : Growth [] (g, m) (g, m') := connect_growth hg.toBase hr
  have hacyclic : g.Acyclic m' :=
    (hs.induct (I := Acyclic) (fun _ _ _ _ hg hvs hI hs => hI.grow hg hvs hs) hg.toBase (by simp) hac).2.2
  refine ⟨(hs.sound hg (by simp)).1, hacyclic, fun c => ?_⟩
  rcases connect_cases hg.owned hg.uuids hg.known hr with hm | ⟨a, -, b, -, m₁, hm, rfl, -, -⟩
  · exact hm.uuid c
  · exact ((Frame.addEdge m₁ a b).uuid c).trans (hm.uuid c)

lemma connectPairs_drawn (hg : g.Sound m) (hac : g.Acyclic m) {pairs : List (Addr × Addr)}
    (hpairs : ∀ q ∈ pairs, q.1 ∈ g.graph ∧ q.2 ∈ g.graph) (ret : Bool) :
    (outcome (g.connectPairs ret pairs) m).map (fun r => (Reply.draw r.1, g.draw r.2)) =
      Plan.connectPairs (g.draw m) ret (pairs.map fun q => (m.name q.1, m.name q.2)) := by
  induction pairs generalizing m ret with
  | nil => rfl
  | cons q pairs ih =>
    obtain ⟨x, y⟩ := q
    obtain ⟨hx, hy⟩ := hpairs _ List.mem_cons_self
    obtain ⟨vx, hvx⟩ := Memory.live_iff.mp (hg.live hx)
    obtain ⟨vy, hvy⟩ := Memory.live_iff.mp (hg.live hy)
    have hfirst := connect_drawn hg hac vx vy
    rw [connectPairs, outcome_bind, (returns_deref.mpr ⟨hvx, rfl⟩).outcome, Option.bind_some, outcome_bind,
      (returns_deref.mpr ⟨hvy, rfl⟩).outcome, Option.bind_some, outcome_bind, List.map_cons, Plan.connectPairs,
      name_of_vertex hvx, name_of_vertex hvy, ← hfirst]
    cases hout : outcome (g.connect vx vy) m with
    | none => rfl
    | some r =>
      obtain ⟨reply, m₁⟩ := r
      obtain ⟨hg₁, hac₁, huuid⟩ := connect_keeps hg hac (Returns.of_outcome hout)
      cases reply with
      | error e => rfl
      | ok b =>
        have hrest := ih hg₁ hac₁ (fun q hq => hpairs q (List.mem_cons_of_mem _ hq)) (ret && b)
        have hnames : (fun q : Addr × Addr => (m₁.name q.1, m₁.name q.2)) = fun q => (m.name q.1, m.name q.2) := by
          funext q
          rw [name_of_uuid (huuid q.1), name_of_uuid (huuid q.2)]
        rw [hnames] at hrest
        exact hrest

omit [TaskStage σ] [TaskCallbackPlugin π] in
lemma labelled_draw (hg : g.Sound m) (l : String) :
    Blueprint.labelled (g.draw m) l = (g.graph.filter (HasLabel m l)).map m.name := by
  rw [Blueprint.labelled, draw, Plan.draw, List.filter_map, List.map_map]
  congr 1
  apply List.filter_congr
  intro a ha
  obtain ⟨v, hv⟩ := Memory.live_iff.mp (hg.live ha)
  simp [HasLabel, hv, card_of_vertex hv, DAGVertex.card, beq_eq_decide]

lemma connectAllByLabel_drawn (hg : g.Sound m) (hac : g.Acyclic m) (l1 l2 : String) :
    (outcome (g.connectAllByLabel l1 l2) m).map (fun r => (Reply.draw r.1, g.draw r.2)) =
      Plan.connectPairs (g.draw m) true
        ((Blueprint.labelled (g.draw m) l1).product (Blueprint.labelled (g.draw m) l2)) := by
  have hfound (l : String) := (withLabel_returns (l := l) hg.owned.live).outcome
  rw [connectAllByLabel, outcome_bind, findAllVerticiesWithLabel, hfound, Option.bind_some, outcome_bind,
    findAllVerticiesWithLabel, hfound, Option.bind_some, connectPairs_drawn hg hac,
    labelled_draw hg, labelled_draw hg, Lists.product_map]
  intro q hq
  obtain ⟨h1, h2⟩ := List.mem_product.mp hq
  exact ⟨(List.mem_filter.mp h1).1, (List.mem_filter.mp h2).1⟩

omit [TaskStage σ] [TaskCallbackPlugin π] in
lemma addVertex_drawn (hg : g.Sound m) (hac : g.Acyclic m) (hv : v.Disconnected) :
    ∃ g' m' rest, Returns (g.addVertex v) m (!(Plan.has (g.draw m) v.uuid), g', rest) m' ∧ g'.Sound m' ∧
      g'.Acyclic m' ∧ g'.draw m' = Plan.add (g.draw m) v.node := by
  have hgrowth {r : Bool × DAG × DAGVertex σ π} {m' : Memory σ π} (hr : Returns (g.addVertex v) m r m') :
      r.2.1.Sound m' ∧ r.2.1.Acyclic m' := by
    have hs : Growth [v] (g, m) (r.2.1, m') := addVertex_growth hg.toBase (List.mem_singleton_self v) hr
    have hvs : ∀ x ∈ [v], x.Disconnected := by simpa using hv
    have hknown : ∀ x ∈ [v], x.Known m := fun x hx e he => by simp [(hvs x hx).edges] at he
    exact ⟨(hs.sound hg hvs).1,
      (hs.induct (I := Acyclic) (fun _ _ _ _ hg hvs hI hs => hI.grow hg hvs hs) hg.toBase hknown hac).2.2⟩
  by_cases hhas : g.Has m v.uuid
  · have hr := addVertex_kept hg.owned hhas
    obtain ⟨hsound, hacyclic⟩ := hgrowth hr
    have hplan := hg.has_draw.mpr hhas
    refine ⟨g, m, v, by rwa [hplan], hsound, hacyclic, ?_⟩
    have hname : Plan.has (g.draw m) v.node.name = true := hplan
    rw [Plan.add, if_pos hname]
  · have hr := addVertex_new hg.owned hhas
    obtain ⟨hsound, hacyclic⟩ := hgrowth hr
    have hplan : Plan.has (g.draw m) v.uuid = false := by
      rw [← Bool.not_eq_true, hg.has_draw]
      exact hhas
    refine ⟨_, _, _, by rwa [hplan], hsound, hacyclic, ?_⟩
    have hname : ¬ Plan.has (g.draw m) v.node.name = true := Bool.not_eq_true _ |>.mpr hplan
    rw [draw_makeShared hg hv, Plan.add, if_neg hname]

lemma addAndConnect_drawn (hg : g.Sound m) (hac : g.Acyclic m) (hv : v.Disconnected) (hw : w.Disconnected) :
    (outcome (g.addAndConnect v w) m).map (fun r => (Reply.draw r.1.1, r.1.2.draw r.2)) =
      Plan.connect (Plan.add (Plan.add (g.draw m) v.node) w.node) v.uuid w.uuid := by
  obtain ⟨g₁, m₁, rest₁, hr₁, hg₁, hac₁, hd₁⟩ := addVertex_drawn hg hac hv
  obtain ⟨g₂, m₂, rest₂, hr₂, hg₂, hac₂, hd₂⟩ := addVertex_drawn hg₁ hac₁ hw
  have hboth : g₂.Both m₂ v.uuid w.uuid := by
    rw [Both, ← hg₂.has_draw, ← hg₂.has_draw, hd₂, hd₁, Plan.has_add, Plan.has_add, Plan.has_add]
    exact ⟨.inl (.inr rfl), .inr rfl⟩
  obtain ⟨a, ha, b, hb, va, wb, hva, hwb, hav, hbw⟩ := hboth.vertices hg₂.owned
  have hfind {x y : DAGVertex σ π} {c : Addr} (hc : c ∈ g₂.graph) (hy : m₂.vertex c = some y)
    (hyx : y.uuid = x.uuid) :
      Returns (g₂.findVertex x.clone) m₂ (some c) m₂ :=
    findVertex_self hg₂.owned hg₂.uuids hc ((uuid_of_vertex hy).trans (congrArg some hyx))
  have hread {y : DAGVertex σ π} {c : Addr} (hy : m₂.vertex c = some y) : Returns (derefLocked (some c)) m₂ y m₂ :=
    returns_derefLocked.mpr ⟨c, rfl, hy, rfl⟩
  simp only [addAndConnect, outcome_bind, hr₁.outcome, hr₂.outcome, (hfind ha hva hav).outcome,
    (hfind hb hwb hbw).outcome, (hread hva).outcome, (hread hwb).outcome, Option.bind_some]
  rw [← hd₁, ← hd₂, ← connect_drawn hg₂ hac₂ v w, connect_congr hav hbw]
  cases outcome (g₂.connect v w) m₂ with
  | none => rfl
  | some r => rfl

omit [TaskStage σ] [TaskCallbackPlugin π] in
lemma shows_draw (hg : g.Sound m) (v : DAGVertex σ π) (ha : a ∈ g.graph) :
    Blueprint.shows (g.draw m) v ⟨m.name a, m.card a, (m.out a).map (Option.map m.name)⟩ = Matches m v a := by
  obtain ⟨w, hw⟩ := Memory.live_iff.mp (hg.live ha)
  have hlength : ((m.out a).map (Option.map m.name)).length = w.edges.length := by
    rw [List.length_map, out_eq, List.length_map, edges_of_vertex hw]
  have hdegree := hg.degree_draw ha
  rw [name_of_vertex hw, count_of_vertex hw] at hdegree
  simp only [Blueprint.shows, Matches, hw, Option.any_some, hlength, name_of_vertex hw, card_of_vertex hw,
    hdegree, DAGVertex.eq, DAGVertex.card, DAGVertex.edgeCount]
  have huuid : (w.uuid.asString == v.uuid.asString) = decide (w.uuid = v.uuid) := by
    rw [Bool.eq_iff_iff, beq_iff_eq, decide_eq_true_iff, UUID.asString_injective.eq_iff]
  by_cases hstatus : w.currentStatus = v.currentStatus
  · simp [hstatus, huuid, beq_eq_decide]
  · have hinvalid : ¬ (w.currentStatus = .invalid ∧ v.currentStatus = .invalid) := fun h =>
      hstatus (h.1.trans h.2.symm)
    simp [hstatus, hinvalid]

omit [TaskStage σ] [TaskCallbackPlugin π] in
lemma any_draw {p : Addr → Bool} {q : Node UUID (Card σ π) → Bool}
    (hq : ∀ a ∈ g.graph, q ⟨m.name a, m.card a, (m.out a).map (Option.map m.name)⟩ = p a) :
    (g.draw m).any q = !(g.graph.filter p).isEmpty := by
  rw [Bool.eq_iff_iff]
  simp only [draw, Plan.draw, List.any_map, List.any_eq_true, Function.comp_apply, Bool.not_eq_true',
    List.isEmpty_eq_false_iff, ne_eq, List.filter_eq_nil_iff, not_forall, not_not]
  constructor
  · rintro ⟨a, ha, hp⟩
    exact ⟨a, ha, (hq a ha).symm.trans hp⟩
  · rintro ⟨a, ha, hp⟩
    exact ⟨a, ha, (hq a ha).trans hp⟩

/-- A removal of the vertices that `p` picks, where `q` picks their nodes. -/
lemma removal_drawn (hg : g.Sound m) {c : Call σ π} {p : Addr → Bool} {q : Node UUID (Card σ π) → Bool}
    (hr : Returns (c.respond g) m (some (.ok !(g.graph.filter p).isEmpty),
      { g with graph := g.graph.filter fun a => !p a }, []) m')
    (hrem : Removal g m (g.graph.filter p) m')
    (hq : ∀ a ∈ g.graph, q ⟨m.name a, m.card a, (m.out a).map (Option.map m.name)⟩ = p a) :
    (outcome (c.respond g) m).map Blueprint.seen =
      some ⟨some (.ok ((g.draw m).any q)), Plan.without (g.draw m) q, []⟩ := by
  rw [hr.outcome, Option.map_some, any_draw hq, ← draw_removal hg hrem hq]
  rfl

lemma removeVertex_drawn (hg : g.Sound m) (r : VertexRef σ π) :
    (outcome ((Call.removeVertex r).respond g) m).map Blueprint.seen =
      Blueprint.perform (VertexRef.target m) (g.draw m) (.removeVertex r) := by
  have hread (v : DAGVertex σ π) (ht : r.target m = some v) (hv : Returns r.read m v m) :
      (outcome ((Call.removeVertex r).respond g) m).map Blueprint.seen =
        Blueprint.perform (VertexRef.target m) (g.draw m) (.removeVertex r) := by
    obtain ⟨m₁, hr, hrem⟩ := removeVertexHeld_returns hg.toBase hv
    simp only [Blueprint.perform, ht]
    refine removal_drawn hg ?_ hrem fun a ha => shows_draw hg v ha
    simp only [Call.respond, returns_bind, returns_pure]
    exact ⟨_, _, hr, rfl, rfl⟩
  cases r with
  | value v => exact hread v rfl (returns_pure.mpr ⟨rfl, rfl⟩)
  | object a =>
    cases hv : m.vertex a with
    | some v => exact hread v hv (returns_deref.mpr ⟨hv, rfl⟩)
    | none =>
      simp only [Blueprint.perform, VertexRef.target, hv]
      cases hgraph : g.graph with
      | nil =>
        have hr : Returns (g.removeVertexHeld (.object a)) m (false, g) m := by
          simp only [removeVertexHeld, VertexRef.held, hgraph, List.not_mem_nil, if_false, returns_bind,
            returns_modify, returns_pure]
          exact ⟨(), m, rfl, _, m, eraseIf_none (by simp [hgraph]), (), m, rfl, rfl, rfl⟩
        have hrespond : Returns ((Call.removeVertex (.object a)).respond g) m (some (.ok false), g, []) m := by
          simp only [Call.respond, returns_bind, returns_pure]
          exact ⟨_, m, hr, rfl, rfl⟩
        have hempty : (g.draw m).isEmpty = true := by simp [draw, hgraph, Plan.draw]
        rw [hrespond.outcome, if_pos hempty]
        rfl
      | cons b bs =>
        -- The first comparison reads the vertex that is not there.
        have hfault : outcome ((Call.removeVertex (.object a)).respond g) m = none := by
          apply outcome_eq_none
          intro x t hr
          simp only [Call.respond, returns_bind] at hr
          obtain ⟨y, t', hr, -⟩ := hr
          exact absurd (removeVertexHeld_stale hg.toBase hv hr).1 (by simp [hgraph])
        rw [hfault]
        simp [draw, hgraph, Plan.draw]

lemma respond_drawn (hg : g.Sound m) (hac : g.Acyclic m) {c : Call σ π} (hd : c.Disconnected) :
    (outcome (c.respond g) m).map Blueprint.seen = Blueprint.perform (VertexRef.target m) (g.draw m) c := by
  cases c with
  | addVertex v =>
    obtain ⟨g', m', rest, hr, -, -, hplan⟩ := addVertex_drawn hg hac hd
    rw [Call.respond, outcome_bind, hr.outcome, Blueprint.perform, ← hplan]
    rfl
  | connect v1 v2 =>
    rw [Call.respond, outcome_bind, Blueprint.perform, ← connect_drawn hg hac]
    cases outcome (g.connect v1 v2) m <;> rfl
  | connectByUuid u1 u2 =>
    rw [Call.respond, outcome_bind, Blueprint.perform]
    by_cases hboth : g.Both m u1 u2
    · have hhas : (Plan.has (g.draw m) u1 && Plan.has (g.draw m) u2) = true := by
        rw [Bool.and_eq_true, hg.has_draw, hg.has_draw]
        exact hboth
      obtain ⟨a, ha, b, hb, v, w, hv, hw, rfl, rfl⟩ := hboth.vertices hg.owned
      have hfind {c : Addr} {x : DAGVertex σ π} (hc : c ∈ g.graph) (hx : m.vertex c = some x) :=
        (findVertex_self hg.owned hg.uuids hc (uuid_of_vertex hx)).outcome
      have hread {c : Addr} {x : DAGVertex σ π} (hx : m.vertex c = some x) : Returns (derefLocked (some c)) m x m :=
        returns_derefLocked.mpr ⟨c, rfl, hx, rfl⟩
      rw [if_pos hhas, ← connect_drawn hg hac]
      simp only [connectByUuid, outcome_bind, ← findVertex.eq_1, hfind ha hv, hfind hb hw, (hread hv).outcome,
        (hread hw).outcome, Option.bind_some]
      cases outcome (g.connect v w) m <;> rfl
    · have hhas : ¬ (Plan.has (g.draw m) u1 && Plan.has (g.draw m) u2) = true := by
        rw [Bool.and_eq_true, hg.has_draw, hg.has_draw]
        exact hboth
      rw [if_neg hhas, outcome_eq_none]
      · rfl
      · intro r t hr
        obtain ⟨a, ha, b, hb, v, w, hv, hw, rfl, rfl, -⟩ := (returns_byUuid hg.owned hg.uuids).mp hr
        exact hboth (both_of_vertices ha hb hv hw)
  | connectAllByLabel l1 l2 =>
    rw [Call.respond, outcome_bind, Blueprint.perform, ← connectAllByLabel_drawn hg hac]
    cases outcome (g.connectAllByLabel l1 l2) m <;> rfl
  | addAndConnect v1 v2 =>
    rw [Call.respond, outcome_bind, Blueprint.perform, ← addAndConnect_drawn hg hac hd.1 hd.2]
    cases outcome (g.addAndConnect v1 v2) m <;> rfl
  | removeVertex r => exact removeVertex_drawn hg r
  | removeVertexByUuid id =>
    obtain ⟨m₁, hr, hdet, hown⟩ := removeVertexByUuid_returns hg.owned hg.uuids id
    have hrem := hdet.release (hg.nodup.filter _) hown (fun a ha => hg.sole a (List.mem_filter.mp ha).1) g
    refine removal_drawn hg ?_ hrem fun a ha => ?_
    · simp only [Call.respond, returns_bind, returns_pure]
      exact ⟨_, _, hr, rfl, rfl⟩
    · rw [uuid_eq_name (hg.live ha)]
      simp
  | removeAllVertexWithLabel l =>
    obtain ⟨m₁, hr, hrem⟩ := removeAllVertexWithLabel_returns hg.owned hg.uuids hg.sole l
    refine removal_drawn hg ?_ hrem fun a ha => ?_
    · simp only [Call.respond, returns_bind, returns_pure]
      exact ⟨_, _, hr, rfl, rfl⟩
    · obtain ⟨v, hv⟩ := Memory.live_iff.mp (hg.live ha)
      simp [HasLabel, hv, card_of_vertex hv, DAGVertex.card, beq_eq_decide]
  | reset =>
    rw [Call.respond, outcome_bind, (reset_returns hg.nodup hg.sole).1.outcome]
    rfl
  | clone =>
    rw [Call.respond, outcome_bind, Blueprint.perform]
    by_cases hres : g.Resolves m
    · obtain ⟨k, m', hr, hk⟩ := clone_returns hg.owned hg.uuids hg.known hg.config hres
      have hkept := hk.kept
      have hsame : g.draw m' = g.draw m :=
        hg.draw_of_cells (.of_kept hkept fun a ha => hg.lt ha) fun a ha => hkept.cell a (hg.lt ha)
      rw [if_neg fun h => hg.stale_draw.mp h hres, hr.outcome, ← draw_isClone (hg.wellFormed hres) hk, ← hsame]
      rfl
    · rw [if_pos (hg.stale_draw.mpr hres), outcome_eq_none]
      · rfl
      · exact fun k m' hr => hres (clone_resolves hg.owned hg.uuids hg.known hr).1

end DAG

variable [TaskStage σ] [TaskCallbackPlugin π] {w₀ w' x : World σ π} {es : List (Event σ π)} {i : ℕ} {call : Call σ π}
  {title : String} {config : Document}

lemma Call.perform_respond (g : DAG) (c : Call σ π) : c.perform g = (do
    let r ← c.respond g
    pure (r.2.1, r.2.2)) := by
  cases c <;> simp [Call.perform, Call.respond]

omit [TaskStage σ] [TaskCallbackPlugin π] in
lemma Call.Disconnected.offered {c : Call σ π} (hd : Call.Disconnected c) : c.Offered m := by
  cases c with
  | addVertex v => exact hd
  | addAndConnect v1 v2 =>
    obtain ⟨h1, h2⟩ : v1.Disconnected ∧ v2.Disconnected := hd
    exact ⟨fun e he => by simp [h1.edges] at he, fun e he => by simp [h2.edges] at he⟩
  | _ => trivial

lemma World.step_respond (x : World σ π) (i : ℕ) (c : Call σ π) : x.step i c = (x.respond i c).map Prod.snd := by
  unfold World.step World.respond
  cases x.dags[i]? with
  | none => rfl
  | some g =>
    have hperform : outcome (c.perform g) x.memory =
        (outcome (c.respond g) x.memory).map fun r => ((r.1.2.1, r.1.2.2), r.2) := by
      rw [Call.perform_respond, outcome_bind]
      cases outcome (c.respond g) x.memory <;> rfl
    cases hr : outcome (c.respond g) x.memory with
    | none =>
      rw [hr] at hperform
      cases hrun : (c.perform g).run x.memory with
      | error e => simp [hrun, hr]
      | ok r => simp [outcome, hrun, Except.toOption] at hperform
    | some r =>
      rw [hr] at hperform
      have hrun : (c.perform g).run x.memory = .ok ((r.1.2.1, r.1.2.2), r.2) := Returns.of_outcome hperform
      simp [hrun, hr]

/-- Each graph of the client is sound and has no cycle. -/
def World.Sound (x : World σ π) : Prop := ∀ g ∈ x.dags, g.Sound x.memory ∧ g.Acyclic x.memory

lemma World.respond_drawn (hx : x.Apart) (hsound : x.Sound) {c : Call σ π} (hd : c.Disconnected) :
    (x.respond i c).map (fun r => (r.1.map DAG.Reply.draw, r.2.draw)) =
      Blueprint.step (VertexRef.target x.memory) x.draw i c := by
  rw [Blueprint.step, World.draw, List.getElem?_map, World.respond]
  cases hg : x.dags[i]? with
  | none => rfl
  | some g =>
    obtain ⟨hgs, hgc⟩ := hsound g (List.mem_of_getElem? hg)
    rw [Option.bind_some, Option.map_some, Option.bind_some, ← DAG.respond_drawn hgs hgc hd]
    cases hr : outcome (c.respond g) x.memory with
    | none => rfl
    | some r =>
      have hstep : x.step i c = some ⟨x.dags.set i r.1.2.1 ++ r.1.2.2, r.2⟩ := by
        rw [World.step_respond, World.respond, hg, Option.bind_some, hr]
        rfl
      obtain ⟨l₁, g', l₂, g'', made, hdags, rfl, hdags', he, -⟩ := hx.step (Call.Disconnected.offered hd) hstep
      obtain rfl : g' = g := by simpa [hdags] using hg
      -- What was done to this graph changes no other.
      have hother (h : DAG) (hh : h ∈ l₁ ++ l₂) : h.draw r.2 = h.draw x.memory := by
        have hdis := ((hx.middle hdags).2.1 h hh).2
        have hmem : h ∈ x.dags :=
          hdags ▸ List.mem_append.mpr ((List.mem_append.mp hh).imp id (List.mem_cons_of_mem _))
        have hhs := (hsound h hmem).1
        have hnot : ∀ a ∈ h.graph, a ∉ g'.graph := fun a hah hag => hdis hag hah
        exact hhs.draw_of_cells (he.evolves fun a ha => ⟨hnot a ha, hhs.lt ha⟩)
          fun a ha => he.cells hgs.closed (hnot a ha) (hhs.lt ha)
      have hsame (l : List DAG) (hl : l ⊆ l₁ ++ l₂) : l.map (fun h => h.draw r.2) = l.map fun h => h.draw x.memory :=
        List.map_congr_left fun h hh => hother h (hl hh)
      have h₁ := hsame l₁ (List.subset_append_left _ _)
      have h₂ := hsame l₂ (List.subset_append_right _ _)
      simp [World.draw, hdags, Blueprint.seen, h₁, h₂]

lemma Run.sound_world (run : Run (World.start title config m) es x) (hd : ∀ e ∈ es, e.call.Disconnected) :
    x.Sound := by
  intro g hg
  obtain ⟨i, hi⟩ := List.mem_iff_getElem?.mp hg
  obtain ⟨⟨hs, -⟩, hac⟩ := run.sound hd i g hi
  exact ⟨hs, hac⟩

lemma Run.drawn_run (run : Run (World.start title config m) es x) (hd : ∀ e ∈ es, e.call.Disconnected) :
    es.foldlM (fun ps e => (Blueprint.step (VertexRef.target e.world.memory) ps e.index e.call).map Prod.snd) [[]] =
      some x.draw := by
  induction run with
  | start => rfl
  | @step es y z i c run _ hs ih =>
    have hes : ∀ e ∈ es, e.call.Disconnected := fun e he => hd e (List.mem_append_left _ he)
    have hc : c.Disconnected := hd ⟨y, i, c⟩ (by simp)
    have hrespond := World.respond_drawn (i := i) (run.apart (World.apart_start title config m))
      (run.sound_world hes) hc
    rw [World.step_respond] at hs
    obtain ⟨r, hr, rfl⟩ := Option.map_eq_some_iff.mp hs
    rw [List.foldlM_append, ih hes]
    change (Blueprint.step (VertexRef.target y.memory) y.draw i c).map Prod.snd >>= pure = some r.2.draw
    rw [← hrespond, hr]
    rfl

/-- A client whose vertices come without edges sees what it would see of plans, in every call of every run. -/
theorem Run.drawn (run : Run (World.start title config m) es x) (hd : ∀ e ∈ es, e.call.Disconnected) :
    es.foldlM (fun ps e => (Blueprint.step (VertexRef.target e.world.memory) ps e.index e.call).map Prod.snd) [[]] =
        some x.draw ∧
      ∀ i (c : Call σ π), c.Disconnected → x.step i c = (x.respond i c).map Prod.snd ∧
        (x.respond i c).map (fun r => (r.1.map DAG.Reply.draw, r.2.draw)) =
          Blueprint.step (VertexRef.target x.memory) x.draw i c :=
  ⟨run.drawn_run hd, fun i c hc => ⟨World.step_respond x i c,
    World.respond_drawn (run.apart (World.apart_start title config m)) (run.sound_world hd) hc⟩⟩

theorem Run.drawn_sample :
    Sample.events.foldlM (fun ps e =>
        (Blueprint.step (VertexRef.target e.world.memory) ps e.index e.call).map Prod.snd) [[]] =
      some Sample.connected.draw ∧
      (Sample.connected.respond 0 .clone).map (fun r => (r.1.map DAG.Reply.draw, r.2.draw)) =
        Blueprint.step (VertexRef.target Sample.connected.memory) Sample.connected.draw 0 .clone :=
  ⟨(Run.drawn Sample.run Sample.disconnected).1, ((Run.drawn Sample.run Sample.disconnected).2 0 .clone trivial).2⟩

end DagScheduler.Graphs

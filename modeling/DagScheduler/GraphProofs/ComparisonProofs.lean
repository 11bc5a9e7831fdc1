import DagScheduler.Graphs.Comparison
import DagScheduler.GraphProofs.InvariantProofs
import DagScheduler.Library.Lists

/-! What `operator==` on graphs decides: it compares two graphs place by place, and of the edges it
sees how many there are. -/

namespace DagScheduler.Graphs

open Library Library.Programs Library.Digraphs Library.Lists

variable {σ π : Type} {m m' : Memory σ π} {g h : DAG} {a b : Addr} {v w : DAGVertex σ π}

def DAGVertex.identity (v : DAGVertex σ π) : UUID × String × VertexStatus := (v.uuid, v.label, v.currentStatus)

lemma DAGVertex.eq_true_iff : v.eq w = true ↔ v.currentStatus = w.currentStatus ∧ v.uuid = w.uuid ∧
    v.label = w.label ∧ v.edges.length = w.edges.length ∧ v.incommingEdgeCount = w.incommingEdgeCount := by
  unfold DAGVertex.eq
  by_cases hs : v.currentStatus = w.currentStatus
  · rw [if_pos hs]
    simp [hs, UUID.asString_injective.eq_iff, edgeCount, and_assoc]
  · have hinvalid : ¬ (v.currentStatus = .invalid ∧ w.currentStatus = .invalid) :=
      fun hb => hs (hb.1.trans hb.2.symm)
    simp [hs, hinvalid]

@[simp] lemma vertex_retain (as : List Addr) : (m.retain as).vertex a = m.vertex a :=
  m.vertices.value_retainAll as a

@[simp] lemma returns_useCount {n : ℕ} : Returns (useCount a) m n m' ↔ n = m.vertices.owners a ∧ m' = m := by
  simp only [useCount, returns_bind, returns_get, returns_pure]
  constructor
  · rintro ⟨s, t, ⟨rfl, rfl⟩, rfl, rfl⟩
    exact ⟨rfl, rfl⟩
  · rintro ⟨rfl, rfl⟩
    exact ⟨_, _, ⟨rfl, rfl⟩, rfl, rfl⟩

lemma owners_retain_both (ha : m.Live a) (hb : m.Live b) :
    (((m.retain [a]).retain [b]).vertices.owners a = ((m.retain [a]).retain [b]).vertices.owners b) ↔
      m.vertices.owners a = m.vertices.owners b := by
  have hfirst := m.vertices.owners_retain_self ha
  have hsecond := (m.vertices.retain a).owners_retain_self (a := b) (by rwa [SharedHeap.value_retain])
  simp only [Memory.retain, SharedHeap.retainAll, List.foldl_cons, List.foldl_nil]
  by_cases hab : a = b
  · subst hab
    simp
  · rw [hsecond, SharedHeap.owners_of_cell_eq (SharedHeap.cell_retain_ne _ hab), hfirst,
      SharedHeap.owners_of_cell_eq (SharedHeap.cell_retain_ne _ (Ne.symm hab))]
    omega

def Equal (m : Memory σ π) (a b : Addr) : Prop :=
  ∃ v w, m.vertex a = some v ∧ m.vertex b = some w ∧ v.eq w = true ∧ m.vertices.owners a = m.vertices.owners b

lemma equal_iff (hv : m.vertex a = some v) (hw : m.vertex b = some w) :
    Equal m a b ↔ v.eq w = true ∧ m.vertices.owners a = m.vertices.owners b := by
  constructor
  · rintro ⟨v', w', hv', hw', heq⟩
    obtain rfl := Option.some.inj (hv.symm.trans hv')
    obtain rfl := Option.some.inj (hw.symm.trans hw')
    exact heq
  · exact fun heq => ⟨v, w, hv, hw, heq⟩

lemma Equal.symm (heq : Equal m a b) : Equal m b a := by
  obtain ⟨v, w, hv, hw, heq, howners⟩ := heq
  obtain ⟨hstatus, huuid, hlabel, hedges, hcount⟩ := DAGVertex.eq_true_iff.mp heq
  exact ⟨w, v, hw, hv, DAGVertex.eq_true_iff.mpr
    ⟨hstatus.symm, huuid.symm, hlabel.symm, hedges.symm, hcount.symm⟩, howners.symm⟩

namespace DAG

lemma returns_compareEach_cons {as bs : List Addr} {ret r : Bool} (hv : m.vertex a = some v)
    (hw : m.vertex b = some w) (ha : 0 < m.vertices.owners a) (hb : 0 < m.vertices.owners b) :
    Returns (compareEach ret (a :: as) (b :: bs)) m r m' ↔
      Returns (if ret && v.eq w && m.vertices.owners a == m.vertices.owners b then compareEach true as bs
        else pure false) m r m' := by
  have hback : (((m.retain [a]).retain [b]).release [b]).release [a] = m := by
    have hle := m.vertices.owners_retain_le a b
    rw [Memory.release_retain (List.nodup_singleton b), Memory.release_retain (List.nodup_singleton a)]
    · simpa using ha
    · intro c hc
      rw [List.mem_singleton.mp hc]
      exact Nat.lt_of_lt_of_le hb hle
  have howners := owners_retain_both (Memory.live_of_vertex hv) (Memory.live_of_vertex hw)
  have hcounts : (((m.retain [a]).retain [b]).vertices.owners a ==
      ((m.retain [a]).retain [b]).vertices.owners b) = (m.vertices.owners a == m.vertices.owners b) := by
    rw [Bool.eq_iff_iff, beq_iff_eq, beq_iff_eq, howners]
  simp only [compareEach, returns_bind, returns_modify, returns_deref, returns_useCount, and_assoc,
    exists_and_left, exists_eq_left, exists_const, vertex_retain, hv, hw, Option.some.injEq, exists_eq_left']
  rw [hcounts, hback]

lemma compareEach_returns {as bs : List Addr} {ret : Bool} (hlen : ret = true → as.length = bs.length)
    (hne : as ≠ [] → bs ≠ []) (has : ∀ a ∈ as, m.Live a ∧ 0 < m.vertices.owners a)
    (hbs : ∀ b ∈ bs, m.Live b ∧ 0 < m.vertices.owners b) :
    ∃ r, Returns (compareEach ret as bs) m r m ∧ (r = true ↔ ret = true ∧ List.Forall₂ (Equal m) as bs) := by
  induction as generalizing bs ret with
  | nil =>
    refine ⟨ret, by simp [compareEach], ?_⟩
    simp only [List.forall₂_nil_left_iff, iff_self_and]
    exact fun hret => List.length_eq_zero_iff.mp (hlen hret).symm
  | cons a as ih =>
    obtain ⟨b, bs, rfl⟩ := List.exists_cons_of_ne_nil (hne (List.cons_ne_nil a as))
    obtain ⟨hla, hoa⟩ := has a List.mem_cons_self
    obtain ⟨hlb, hob⟩ := hbs b List.mem_cons_self
    obtain ⟨v, hv⟩ := Memory.live_iff.mp hla
    obtain ⟨w, hw⟩ := Memory.live_iff.mp hlb
    simp only [returns_compareEach_cons hv hw hoa hob, List.forall₂_cons, equal_iff hv hw]
    cases hall : ret && v.eq w && m.vertices.owners a == m.vertices.owners b with
    | true =>
      simp only [Bool.and_eq_true, beq_iff_eq] at hall
      obtain ⟨⟨hret, heq⟩, howners⟩ := hall
      have hlen' : as.length = bs.length := Nat.succ.inj (hlen hret)
      have hne' : as ≠ [] → bs ≠ [] := fun hn hb => hn (List.length_eq_zero_iff.mp (by rw [hlen', hb]; rfl))
      obtain ⟨r, hr, hiff⟩ : ∃ r, Returns (compareEach true as bs) m r m ∧
          (r = true ↔ true = true ∧ List.Forall₂ (Equal m) as bs) :=
        ih (fun _ => hlen') hne' (fun c hc => has c (List.mem_cons_of_mem _ hc))
          (fun c hc => hbs c (List.mem_cons_of_mem _ hc))
      exact ⟨r, hr, by simpa [hret, heq, howners] using hiff⟩
    | false =>
      refine ⟨false, by simp, ?_⟩
      simp only [Bool.false_eq_true, false_iff]
      rintro ⟨hret, ⟨heq, howners⟩, -⟩
      simp [hret, heq, howners] at hall

lemma kept_release {as : List Addr} (hm : Kept m m') (has : ∀ a ∈ as, m.vertices.next ≤ a) :
    Kept m (m'.release as) where
  cell a ha := by
    rw [← hm.cell a ha]
    exact m'.vertices.cell_releaseAll_of_notMem fun hmem => absurd (has a hmem) (Nat.not_le.mpr ha)
  next := by
    simpa [Memory.release] using hm.next
  wrapped := hm.wrapped

lemma sortByLabel_returns (g : DAG) (m : Memory σ π) :
    ∃ g', Returns g.sortByLabel m g' m ∧ g'.graph.Perm g.graph := by
  let label a := ((m.vertex a).map DAGVertex.label).getD ""
  refine ⟨{ g with graph := g.graph.insertionSort fun a b => label a ≤ label b }, ?_,
    List.perm_insertionSort _ g.graph⟩
  simp only [sortByLabel, returns_bind, returns_get, returns_pure]
  exact ⟨m, m, ⟨rfl, rfl⟩, rfl, rfl⟩

lemma equal_kept (hm : Kept m m') (ha : m.Live a) (hb : m.Live b) : Equal m' a b ↔ Equal m a b := by
  simp only [Equal, hm.vertex (vertex_lt ha), hm.vertex (vertex_lt hb), hm.owners (vertex_lt ha),
    hm.owners (vertex_lt hb)]

lemma forall₂_equal_kept {as bs : List Addr} (hm : Kept m m') (has : ∀ a ∈ as, m.Live a)
    (hbs : ∀ b ∈ bs, m.Live b) : List.Forall₂ (Equal m') as bs ↔ List.Forall₂ (Equal m) as bs := by
  rw [List.forall₂_iff_zip, List.forall₂_iff_zip]
  refine and_congr_right fun _ => forall_congr' fun a => forall_congr' fun b => imp_congr_right fun hab => ?_
  obtain ⟨ha, hb⟩ := List.of_mem_zip hab
  exact equal_kept hm (has a ha) (hbs b hb)

lemma edges_length_equal {as bs : List Addr} (heq : List.Forall₂ (Equal m) as bs) :
    (as.map fun a => (m.edges a).length).sum = (bs.map fun b => (m.edges b).length).sum := by
  induction heq with
  | nil => rfl
  | cons hab _ ih =>
    obtain ⟨v, w, hv, hw, heq, -⟩ := hab
    have hedges := (DAGVertex.eq_true_iff.mp heq).2.2.2.1
    rw [List.map_cons, List.map_cons, List.sum_cons, List.sum_cons, ih, edges_of_vertex hv, edges_of_vertex hw,
      hedges]

def sameConfig (same : Document → Document → Bool) (g h : DAG) : Bool :=
  match g.jsonConfig, h.jsonConfig with
  | some c, some d => same c d
  | _, _ => false

def SameVertex (m : Memory σ π) (a b : Addr) : Prop :=
  (m.vertex a).map DAGVertex.identity = (m.vertex b).map DAGVertex.identity

instance (m : Memory σ π) (a b : Addr) : Decidable (SameVertex m a b) :=
  inferInstanceAs (Decidable ((m.vertex a).map DAGVertex.identity = (m.vertex b).map DAGVertex.identity))

lemma SameVertex.uuid (hs : SameVertex m a b) : m.uuid a = m.uuid b := by
  have h := congrArg (Option.map Prod.fst) hs
  simpa only [Option.map_map, Function.comp_def, DAGVertex.identity, Memory.uuid] using h

structure Alike (m : Memory σ π) (g h : DAG) (a b : Addr) : Prop where
  same : SameVertex m a b
  outgoing : (m.targets a).length = (m.targets b).length
  incoming : inDegree g.graph m.targets a = inDegree h.graph m.targets b
  owners : m.vertices.owners a = m.vertices.owners b

lemma equal_iff_alike (hg : g.WellFormed m) (hh : h.WellFormed m) (ha : a ∈ g.graph) (hb : b ∈ h.graph) :
    Equal m a b ↔ Alike m g h a b := by
  obtain ⟨v, hv⟩ := Memory.live_iff.mp (hg.live a ha)
  obtain ⟨w, hw⟩ := Memory.live_iff.mp (hh.live b hb)
  have houtv := hg.edges_length ha
  have houtw := hh.edges_length hb
  have hinv := hg.counted a ha
  have hinw := hh.counted b hb
  rw [edges_of_vertex hv] at houtv
  rw [edges_of_vertex hw] at houtw
  rw [count_of_vertex hv] at hinv
  rw [count_of_vertex hw] at hinw
  rw [equal_iff hv hw, DAGVertex.eq_true_iff, houtv, houtw, hinv, hinw]
  have hsame : SameVertex m a b ↔ v.uuid = w.uuid ∧ v.label = w.label ∧ v.currentStatus = w.currentStatus := by
    simp [SameVertex, hv, hw, DAGVertex.identity]
  constructor
  · rintro ⟨⟨hstatus, huuid, hlabel, hout, hin⟩, howners⟩
    exact ⟨hsame.mpr ⟨huuid, hlabel, hstatus⟩, hout, hin, howners⟩
  · rintro ⟨hs, hout, hin, howners⟩
    obtain ⟨huuid, hlabel, hstatus⟩ := hsame.mp hs
    exact ⟨⟨hstatus, huuid, hlabel, hout, hin⟩, howners⟩

structure SameVertices (m : Memory σ π) (g h : DAG) : Prop where
  left : ∀ a ∈ g.graph, ∃ b ∈ h.graph, Alike m g h a b
  right : ∀ b ∈ h.graph, ∃ a ∈ g.graph, Alike m g h a b

def SameOrder (m : Memory σ π) (g h : DAG) : Prop :=
  List.Forall₂ (fun a b => m.uuid a = m.uuid b) g.graph h.graph

lemma SameVertices.of_equal (hg : g.WellFormed m) (hh : h.WellFormed m)
    (heq : List.Forall₂ (Equal m) g.graph h.graph) : SameVertices m g h := by
  obtain ⟨hleft, hright⟩ := exists_of_forall₂ heq
  constructor
  · intro a ha
    obtain ⟨b, hb, hab⟩ := hleft a ha
    exact ⟨b, hb, (equal_iff_alike hg hh ha hb).mp hab⟩
  · intro b hb
    obtain ⟨a, ha, hab⟩ := hright b hb
    exact ⟨a, ha, (equal_iff_alike hg hh ha hb).mp hab⟩

lemma SameVertices.equal (hg : g.WellFormed m) (hh : h.WellFormed m) (hs : SameVertices m g h)
    (ho : SameOrder m g h) : List.Forall₂ (Equal m) g.graph h.graph := by
  obtain ⟨hlen, hzip⟩ := List.forall₂_iff_zip.mp ho
  refine List.forall₂_iff_zip.mpr ⟨hlen, fun {a b} hab => ?_⟩
  obtain ⟨ha, hb⟩ := List.of_mem_zip hab
  obtain ⟨b', hb', halike⟩ := hs.left a ha
  obtain rfl := hh.uuids b hb b' hb' ((hzip hab).symm.trans halike.same.uuid)
  exact (equal_iff_alike hg hh ha hb).mpr halike

structure SameGraph (same : Document → Document → Bool) (m : Memory σ π) (g h : DAG) : Prop where
  left : ∀ a ∈ g.graph, ∃ b ∈ h.graph, SameVertex m a b
  right : ∀ b ∈ h.graph, ∃ a ∈ g.graph, SameVertex m a b
  edges : ∀ a ∈ g.graph, ∀ a' ∈ g.graph, ∀ b ∈ h.graph, ∀ b' ∈ h.graph, SameVertex m a b → SameVertex m a' b' →
    (a' ∈ m.targets a ↔ b' ∈ m.targets b)
  config : sameConfig same g h = true

variable [TaskStage σ] [TaskCallbackPlugin π] {same : Document → Document → Bool}

lemma clone_kept (hg : g.WellFormed m) : ∃ k m', Returns g.clone m k m' ∧ Kept m m' ∧
    ∀ a ∈ k.graph, m.vertices.next ≤ a := by
  obtain ⟨k, m', hr, hk⟩ :=
    clone_returns hg.toOwned hg.uuids hg.toClonable.known hg.config hg.toClonable.resolves
  refine ⟨k, m', hr, hk.kept, ?_⟩
  intro b hb
  rw [hk.graph] at hb
  obtain ⟨a, ha, rfl⟩ := List.mem_map.mp hb
  exact hk.copied.fresh a ha

lemma eq_returns (same : Document → Document → Bool) (hg : g.WellFormed m) (hh : h.WellFormed m)
    (hgo : g.Held m) (hho : h.Held m) (hne : g.graph ≠ [] → h.graph ≠ []) :
    ∃ r m', Returns (g.eq same h) m r m' ∧ Kept m m' ∧
      (r = true ↔ List.Forall₂ (Equal m) g.graph h.graph ∧ sameConfig same g h = true) := by
  obtain ⟨k₁, m₁, hr₁, hm₁, hfresh₁⟩ := clone_kept hg
  obtain ⟨k₂, m₂, hr₂, hm₂, hfresh₂⟩ := clone_kept (hh.kept hm₁)
  have hm : Kept m m₂ := hm₁.trans hm₂
  have hg₂ := hg.kept hm
  have hh₂ := hh.kept hm
  have hlen : (g.graph.length == h.graph.length) = true → g.graph.length = h.graph.length := beq_iff_eq.mp
  obtain ⟨r, hr, hiff⟩ := compareEach_returns hlen hne
    (fun a ha => ⟨hg₂.live a ha, by rw [hm.owners (vertex_lt (hg.live a ha))]; exact hgo a ha⟩)
    (fun b hb => ⟨hh₂.live b hb, by rw [hm.owners (vertex_lt (hh.live b hb))]; exact hho b hb⟩)
  obtain ⟨l₁, hs₁, hperm₁⟩ := sortByLabel_returns k₁ m₂
  obtain ⟨l₂, hs₂, hperm₂⟩ := sortByLabel_returns k₂ m₂
  obtain ⟨c, hc⟩ := Option.isSome_iff_exists.mp hg.config
  obtain ⟨d, hd⟩ := Option.isSome_iff_exists.mp hh.config
  refine ⟨r && g.graph.length == h.graph.length && (g.graph.map fun a => (m₂.edges a).length).sum ==
    (h.graph.map fun b => (m₂.edges b).length).sum && same c d,
    (m₂.release l₂.graph).release l₁.graph, ?_, ?_, ?_⟩
  · simp only [DAG.eq, returns_bind]
    refine ⟨k₁, m₁, hr₁, k₂, m₂, hr₂, l₁, m₂, hs₁, l₂, m₂, hs₂, r, m₂, hr, _, m₂, returns_edgeCount hg₂.live,
      _, m₂, returns_edgeCount hh₂.live, ?_⟩
    simp only [hc, hd, DAG.destroy, returns_bind, returns_modify, returns_pure]
    exact ⟨(), _, rfl, (), _, rfl, trivial, rfl⟩
  · apply kept_release
    · apply kept_release hm
      exact fun a ha => hm₁.next.trans (hfresh₂ a (hperm₂.mem_iff.mp ha))
    · exact fun a ha => hfresh₁ a (hperm₁.mem_iff.mp ha)
  · simp only [sameConfig, hc, hd, Bool.and_eq_true, hiff, beq_iff_eq]
    rw [forall₂_equal_kept hm hg.live hh.live]
    constructor
    · rintro ⟨⟨⟨⟨-, heq⟩, -⟩, -⟩, hsame⟩
      exact ⟨heq, hsame⟩
    · rintro ⟨heq, hsame⟩
      exact ⟨⟨⟨⟨heq.length_eq, heq⟩, heq.length_eq⟩,
        edges_length_equal ((forall₂_equal_kept hm hg.live hh.live).mpr heq)⟩, hsame⟩

/-- Graphs that compare equal have the same vertices, and graphs that have them in the same order
compare equal. -/
theorem eq_compares (hg : g.WellFormed m) (hh : h.WellFormed m) (hgo : g.Held m) (hho : h.Held m)
    (hlen : g.graph.length = h.graph.length) :
    ∃ r m', Returns (g.eq same h) m r m' ∧ Kept m m' ∧
      (r = true → SameVertices m g h ∧ sameConfig same g h = true) ∧
      (SameOrder m g h → SameVertices m g h → sameConfig same g h = true → r = true) := by
  have hne : g.graph ≠ [] → h.graph ≠ [] := fun hn hh => hn (List.length_eq_zero_iff.mp (by rw [hlen, hh]; rfl))
  obtain ⟨r, m', hr, hm, hiff⟩ := eq_returns same hg hh hgo hho hne
  refine ⟨r, m', hr, hm, fun htrue => ?_, fun ho hs hc => ?_⟩
  · obtain ⟨heq, hc⟩ := hiff.mp htrue
    exact ⟨.of_equal hg hh heq, hc⟩
  · exact hiff.mpr ⟨hs.equal hg hh ho, hc⟩

end DAG

namespace Sample

def vertices (vs : List (BitVec 128 × List Addr × ℕ)) : Memory Unit Unit where
  vertices := vs.foldl (fun h v => h.makeShared
    { vertex v.1 (v.2.1.map fun c => ⟨⟨9⟩, .initialized, some c⟩) v.2.2 task₁ with task := none }) SharedHeap.empty
  entropy n := ⟨BitVec.ofNat 128 (n + 10)⟩
  wrapped := false

def sameJson : Document → Document → Bool
  | .null, .null => true
  | _, _ => false

def listed (as : List Addr) : DAG := ⟨as, "sample", some .null⟩

def crossed : Memory Unit Unit :=
  vertices [(1, [1], 0), (2, [], 1), (3, [3], 0), (4, [], 1), (1, [7], 0), (2, [], 1), (3, [5], 0), (4, [], 1)]

def single : Memory Unit Unit := vertices [(1, [], 0), (1, [], 0)]

def pairs : Memory Unit Unit := vertices [(1, [], 0), (2, [], 0), (2, [], 0), (1, [], 0)]

def Proper (m : Memory Unit Unit) (as : List Addr) : Prop :=
  as.Nodup ∧ (∀ a ∈ as, m.Live a) ∧ (listed as).EdgesInside m ∧ (listed as).DistinctUuids m ∧
    (listed as).Counted m ∧ (listed as).Simple m ∧ ∀ a ∈ as, 0 < m.vertices.owners a

instance (m : Memory Unit Unit) (as : List Addr) : Decidable (Proper m as) :=
  inferInstanceAs (Decidable (as.Nodup ∧ (∀ a ∈ as, m.Live a) ∧ (listed as).EdgesInside m ∧
    (listed as).DistinctUuids m ∧ (listed as).Counted m ∧ (listed as).Simple m ∧ ∀ a ∈ as, 0 < m.vertices.owners a))

lemma Proper.wellFormed {m : Memory Unit Unit} {as : List Addr} (hp : Proper m as) : (listed as).WellFormed m := by
  obtain ⟨hnodup, hlive, hinside, huuids, hcounted, hsimple, -⟩ := hp
  exact ⟨⟨⟨hnodup, hlive⟩, hinside, huuids, rfl⟩, hcounted, hsimple⟩

lemma Proper.held {m : Memory Unit Unit} {as : List Addr} (hp : Proper m as) : (listed as).Held m :=
  hp.2.2.2.2.2.2

structure Compared (m : Memory Unit Unit) (g h : DAG) (r : Bool) : Prop where
  left : g.WellFormed m
  right : h.WellFormed m
  leftHeld : g.Held m
  rightHeld : h.Held m
  length : g.graph.length = h.graph.length
  returns : ∃ m', Returns (g.eq sameJson h) m r m'

lemma compared_of {m : Memory Unit Unit} {as bs : List Addr} {r : Bool} (has : Proper m as) (hbs : Proper m bs)
    (hlen : as.length = bs.length)
    (hr : (((listed as).eq sameJson (listed bs)).run m).toOption.any (fun p => p.1 == r) = true) :
    Compared m (listed as) (listed bs) r := by
  obtain ⟨m', hrun⟩ := exists_returns_eq hr
  exact ⟨has.wellFormed, hbs.wellFormed, has.held, hbs.held, hlen, m', hrun⟩

end Sample

open Sample DAG

theorem DAG.eq_compares_sample :
    ∃ r m', Returns ((listed [0, 1, 2, 3]).eq sameJson (listed [4, 5, 6, 7])) crossed r m' ∧ Kept crossed m' ∧
      (r = true → SameVertices crossed (listed [0, 1, 2, 3]) (listed [4, 5, 6, 7]) ∧
        sameConfig sameJson (listed [0, 1, 2, 3]) (listed [4, 5, 6, 7]) = true) ∧
      (SameOrder crossed (listed [0, 1, 2, 3]) (listed [4, 5, 6, 7]) →
        SameVertices crossed (listed [0, 1, 2, 3]) (listed [4, 5, 6, 7]) →
          sameConfig sameJson (listed [0, 1, 2, 3]) (listed [4, 5, 6, 7]) = true → r = true) := by
  have hg : Proper crossed [0, 1, 2, 3] := by decide +kernel
  have hh : Proper crossed [4, 5, 6, 7] := by decide +kernel
  exact DAG.eq_compares hg.wellFormed hh.wellFormed hg.held hh.held rfl

/-- Different edges compare equal where every vertex has as many as its counterpart; equal graphs do
not compare equal if someone else owns a vertex, or if the vertices were added in another order. -/
theorem DAG.eq_compares_fails :
    (Compared crossed (listed [0, 1, 2, 3]) (listed [4, 5, 6, 7]) true ∧
      ¬ SameGraph sameJson crossed (listed [0, 1, 2, 3]) (listed [4, 5, 6, 7])) ∧
    (Compared (single.retain [0]) (listed [0]) (listed [1]) false ∧
      SameGraph sameJson (single.retain [0]) (listed [0]) (listed [1])) ∧
    Compared pairs (listed [0, 1]) (listed [2, 3]) false ∧ SameGraph sameJson pairs (listed [0, 1]) (listed [2, 3]) := by
  refine ⟨⟨?_, ?_⟩, ⟨?_, ?_⟩, ?_, ?_⟩
  · exact compared_of (by decide +kernel) (by decide +kernel) (by decide +kernel) (by decide +kernel)
  · intro hs
    exact absurd hs.edges (by decide +kernel)
  · exact compared_of (by decide +kernel) (by decide +kernel) (by decide +kernel) (by decide +kernel)
  · exact ⟨by decide +kernel, by decide +kernel, by decide +kernel, rfl⟩
  · exact compared_of (by decide +kernel) (by decide +kernel) (by decide +kernel) (by decide +kernel)
  · exact ⟨by decide +kernel, by decide +kernel, by decide +kernel, rfl⟩

namespace DAG

lemma forall₂_equal_symm {as bs : List Addr} (heq : List.Forall₂ (Equal m) as bs) : List.Forall₂ (Equal m) bs as :=
  (heq.imp fun _ _ hab => hab.symm).flip

lemma sameConfig_symm {same : Document → Document → Bool} (hsame : ∀ c d, same c d = same d c) (g h : DAG) :
    sameConfig same g h = sameConfig same h g := by
  unfold sameConfig
  cases g.jsonConfig with
  | none => cases h.jsonConfig <;> rfl
  | some c =>
    cases h.jsonConfig with
    | none => rfl
    | some d => exact hsame c d

variable [TaskStage σ] [TaskCallbackPlugin π] {same : Document → Document → Bool}

/-- The loop starts with the first vertex of `rhs`, whether there is one or not. -/
lemma eq_faults (hg : g.graph ≠ []) (hh : h.graph = []) {r : Bool} : ¬ Returns (g.eq same h) m r m' := by
  intro hr
  obtain ⟨a, as, hcons⟩ := List.exists_cons_of_ne_nil hg
  simp only [DAG.eq, returns_bind, hcons, hh, compareEach, returns_throw] at hr
  obtain ⟨_, _, -, _, _, -, _, _, -, _, _, -, _, _, hfalse, -⟩ := hr
  exact hfalse

/-- Comparing graphs in both orders gives one answer, unless just one of them is empty: then one of
the comparisons reads a vertex that is not there. -/
theorem eq_symmetric (hsame : ∀ c d, same c d = same d c) (hg : g.WellFormed m) (hh : h.WellFormed m)
    (hgo : g.Held m) (hho : h.Held m) :
    (∃ r m₁ m₂, Returns (g.eq same h) m r m₁ ∧ Returns (h.eq same g) m r m₂) ↔ (g.graph = [] ↔ h.graph = []) := by
  constructor
  · rintro ⟨r, m₁, m₂, h₁, h₂⟩
    constructor
    · intro hnil
      by_contra hne
      exact eq_faults hne hnil h₂
    · intro hnil
      by_contra hne
      exact eq_faults hne hnil h₁
  · intro hempty
    obtain ⟨r₁, m₁, hr₁, -, hiff₁⟩ := eq_returns same hg hh hgo hho (fun hn hnil => hn (hempty.mpr hnil))
    obtain ⟨r₂, m₂, hr₂, -, hiff₂⟩ := eq_returns same hh hg hho hgo (fun hn hnil => hn (hempty.mp hnil))
    have hr : r₁ = r₂ := by
      rw [Bool.eq_iff_iff, hiff₁, hiff₂, sameConfig_symm hsame]
      exact and_congr_left' ⟨forall₂_equal_symm, forall₂_equal_symm⟩
    exact ⟨r₁, m₁, m₂, hr₁, hr ▸ hr₂⟩

end DAG

theorem DAG.eq_symmetric_sample :
    (∃ r m₁ m₂, Returns ((listed [0, 1, 2, 3]).eq sameJson (listed [4, 5, 6, 7])) crossed r m₁ ∧
      Returns ((listed [4, 5, 6, 7]).eq sameJson (listed [0, 1, 2, 3])) crossed r m₂) ↔
    ((listed [0, 1, 2, 3]).graph = [] ↔ (listed [4, 5, 6, 7]).graph = []) := by
  have hg : Proper crossed [0, 1, 2, 3] := by decide +kernel
  have hh : Proper crossed [4, 5, 6, 7] := by decide +kernel
  refine DAG.eq_symmetric ?_ hg.wellFormed hh.wellFormed hg.held hh.held
  intro c d
  cases c <;> cases d <;> rfl

theorem DAG.eq_symmetric_fails :
    Proper single [0] ∧ Proper single [] ∧
    ((listed [0]).eq sameJson (listed [])).run single = .error .outOfRange ∧
    ∃ m', Returns ((listed []).eq sameJson (listed [0])) single false m' := by
  refine ⟨by decide +kernel, by decide +kernel, by rfl, ?_⟩
  exact exists_returns_eq (by decide +kernel)

end DagScheduler.Graphs

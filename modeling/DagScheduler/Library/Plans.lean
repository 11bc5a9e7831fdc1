import DagScheduler.Library.Digraphs

/-! Directed graphs as plain data: nodes in order, each with a name, what it carries and the names it
points at; and how such a plan is drawn from objects that point at each other. -/

namespace DagScheduler.Library.Plans

open Digraphs Relation

structure Node (κ α : Type) where
  name : κ
  data : α
  /-- A target that is gone is `none`. -/
  out : List (Option κ)

abbrev Plan (κ α : Type) := List (Node κ α)

namespace Plan

variable {κ α A : Type}

section Operations

variable [DecidableEq κ]

def has (p : Plan κ α) (u : κ) : Bool := p.any fun n => n.name = u

def stale (p : Plan κ α) : Bool := p.any fun n => n.out.any Option.isNone

def leads (p : Plan κ α) (u w : κ) : Bool := p.any fun n => n.name = u && n.out.contains (some w)

def Reaches (p : Plan κ α) : κ → κ → Prop := ReflTransGen fun u w => p.leads u w = true

/-- A node named `u` points at one that is gone. -/
def dangles (p : Plan κ α) (u : κ) : Bool := p.any fun n => n.name = u && n.out.any Option.isNone

def degree (p : Plan κ α) (u : κ) : ℕ := (p.flatMap Node.out).count (some u)

def add (p : Plan κ α) (n : Node κ α) : Plan κ α := if p.has n.name then p else p ++ [n]

def link (p : Plan κ α) (u w : κ) : Plan κ α :=
  p.map fun n => if n.name = u then { n with out := n.out ++ [some w] } else n

/-- The nodes that `q` picks are taken out; who points at them points at nothing. -/
def without (p : Plan κ α) (q : Node κ α → Bool) : Plan κ α :=
  (p.filter fun n => !q n).map fun n =>
    { n with out := n.out.map fun t => t.filter fun w => !has (p.filter q) w }

abbrev Answer (κ : Type) := Except (κ × κ) Bool

open Classical in
/-- An edge that closes a cycle is refused. The search for one takes no stale edge. -/
noncomputable def connect (p : Plan κ α) (u w : κ) : Option (Answer κ × Plan κ α) :=
  if p.has u && p.has w then
    if p.stale then none
    else if p.Reaches w u then some (.error (u, w), p)
    else some (.ok true, if p.leads u w then p else p.link u w)
  else some (.ok false, p)

noncomputable def connectPairs (p : Plan κ α) (ret : Bool) : List (κ × κ) → Option (Answer κ × Plan κ α)
  | [] => some (.ok ret, p)
  | (u, w) :: pairs =>
    match p.connect u w with
    | none => none
    | some (.error e, p) => some (.error e, p)
    | some (.ok b, p) => connectPairs p (ret && b) pairs

lemma has_add (p : Plan κ α) (n : Node κ α) (u : κ) : has (add p n) u = true ↔ p.has u = true ∨ n.name = u := by
  unfold add
  split_ifs with h
  · exact ⟨.inl, fun hu => hu.elim id fun hn => hn ▸ h⟩
  · simp [has]

section Relabelling

variable {β : Type} (f : α → β) (p : Plan κ α)

def relabel : Plan κ β := p.map fun n => { n with data := f n.data }

@[simp] lemma has_relabel (u : κ) : (relabel f p).has u = p.has u := by
  simp only [has, relabel, List.any_map, Function.comp_def]

@[simp] lemma leads_relabel (u w : κ) : (relabel f p).leads u w = p.leads u w := by
  simp only [leads, relabel, List.any_map, Function.comp_def]

@[simp] lemma reaches_relabel : (relabel f p).Reaches = p.Reaches := by
  simp only [Reaches, leads_relabel]

lemma relabel_add (n : Node κ α) : relabel f (p.add n) = (relabel f p).add { n with data := f n.data } := by
  rw [add, add, has_relabel]
  split_ifs with h
  · rfl
  · simp only [relabel, List.map_append, List.map_singleton]

end Relabelling

end Operations

/-! The plan of some objects. -/

def draw (V : List A) (name : A → κ) (data : A → α) (out : A → List (Option A)) : Plan κ α :=
  V.map fun a => ⟨name a, data a, (out a).map (Option.map name)⟩

variable {V : List A} {name name' : A → κ} {data data' : A → α} {out out' : A → List (Option A)} {a b : A} {u : κ}

lemma draw_congr (hname : ∀ a ∈ V, name' a = name a) (hdata : ∀ a ∈ V, data' a = data a)
    (hout : ∀ a ∈ V, (out' a).map (Option.map name') = (out a).map (Option.map name)) :
    draw V name' data' out' = draw V name data out := by
  apply List.map_congr_left
  intro a ha
  rw [hname a ha, hdata a ha, hout a ha]

lemma has_draw [DecidableEq κ] : (draw V name data out).has u = true ↔ ∃ a ∈ V, name a = u := by
  simp [has, draw]

lemma stale_draw : (draw V name data out).stale = true ↔ ∃ a ∈ V, none ∈ out a := by
  simp [stale, draw]

lemma dangles_draw [DecidableEq κ] (hinj : ∀ a ∈ V, ∀ b ∈ V, name a = name b → a = b) (ha : a ∈ V) :
    (draw V name data out).dangles (name a) = true ↔ none ∈ out a := by
  simp only [dangles, draw, List.any_map, List.any_eq_true, Function.comp_apply, Bool.and_eq_true,
    decide_eq_true_eq, Option.isNone_iff_eq_none, exists_eq_right, Option.map_eq_none_iff]
  constructor
  · rintro ⟨b, hb, hname, hnone⟩
    rwa [hinj b hb a ha hname] at hnone
  · exact fun h => ⟨a, ha, rfl, h⟩

lemma draw_append (a : A) : draw (V ++ [a]) name data out =
    draw V name data out ++ [⟨name a, data a, (out a).map (Option.map name)⟩] := by
  simp [draw]

/-- The same plan, of other objects. -/
lemma draw_map {B : Type} {φ : A → B} {name' : B → κ} {data' : B → α} {out' : B → List (Option B)}
    (hname : ∀ a ∈ V, name' (φ a) = name a)
    (hout : ∀ a ∈ V, (out' (φ a)).map (Option.map name') = (out a).map (Option.map name)) :
    draw (V.map φ) name' data' out' = draw V name (fun a => data' (φ a)) out := by
  unfold draw
  rw [List.map_map]
  apply List.map_congr_left
  intro a ha
  simp only [Function.comp_apply, hname a ha, hout a ha]

section Inside

variable (hinj : ∀ a ∈ V, ∀ b ∈ V, name a = name b → a = b) (hin : ∀ a ∈ V, ∀ b, some b ∈ out a → b ∈ V)

include hinj hin

lemma mem_map_name (ha : a ∈ V) (hb : b ∈ V) : some (name b) ∈ (out a).map (Option.map name) ↔ some b ∈ out a := by
  rw [List.mem_map]
  constructor
  · rintro ⟨t, ht, hname⟩
    obtain ⟨c, rfl, hc⟩ := Option.map_eq_some_iff.mp hname
    rwa [hinj c (hin a ha c ht) b hb hc] at ht
  · exact fun h => ⟨some b, h, rfl⟩

lemma leads_draw [DecidableEq κ] (ha : a ∈ V) (hb : b ∈ V) :
    (draw V name data out).leads (name a) (name b) = true ↔ some b ∈ out a := by
  simp only [leads, draw, List.any_map, List.any_eq_true, Function.comp_apply, Bool.and_eq_true, decide_eq_true_eq,
    List.contains_iff_mem]
  constructor
  · rintro ⟨c, hc, hname, hmem⟩
    obtain rfl := hinj c hc a ha hname
    exact (mem_map_name hinj hin hc hb).mp hmem
  · exact fun h => ⟨a, ha, rfl, (mem_map_name hinj hin ha hb).mpr h⟩

lemma reaches_draw [DecidableEq κ] (ha : a ∈ V) (hb : b ∈ V) :
    (draw V name data out).Reaches (name a) (name b) ↔
      ReflTransGen (fun x y => x ∈ V ∧ some y ∈ out x) a b := by
  have hname : Set.InjOn name {x | x ∈ V} := fun x hx y hy => hinj x hx y hy
  have hinside (x y : A) (hxy : x ∈ V ∧ some y ∈ out x) : x ∈ {x | x ∈ V} ∧ y ∈ {x | x ∈ V} :=
    ⟨hxy.1, hin x hxy.1 y hxy.2⟩
  refine reach_image_iff hname hinside (fun u w => ?_) ha hb
  constructor
  · intro hlead
    simp only [leads, draw, List.any_map, List.any_eq_true, Function.comp_apply, Bool.and_eq_true, decide_eq_true_eq,
      List.contains_iff_mem, List.mem_map] at hlead
    obtain ⟨x, hx, hu, t, ht, hw⟩ := hlead
    obtain ⟨y, rfl, hy⟩ := Option.map_eq_some_iff.mp hw
    exact ⟨x, y, ⟨hx, ht⟩, hu, hy⟩
  · rintro ⟨x, y, ⟨hx, hxy⟩, rfl, rfl⟩
    exact (leads_draw hinj hin hx (hin x hx y hxy)).mpr hxy

lemma degree_draw [DecidableEq κ] [DecidableEq A] (hb : b ∈ V) :
    (draw V name data out).degree (name b) = (V.flatMap out).count (some b) := by
  have hflat : (draw V name data out).flatMap Node.out = (V.flatMap out).map (Option.map name) := by
    rw [draw, List.flatMap_map, List.map_flatMap]
  rw [degree, hflat, List.count, List.count, List.countP_map]
  apply List.countP_congr
  intro t ht
  obtain ⟨a, ha, hta⟩ := List.mem_flatMap.mp ht
  cases t with
  | none => simp
  | some c =>
    have hc := hin a ha c hta
    simp only [Function.comp_apply, Option.map_some, beq_iff_eq, Option.some.injEq]
    exact ⟨hinj c hc b hb, fun h => h ▸ rfl⟩

omit hin in
lemma draw_link [DecidableEq κ] (ha : a ∈ V) (hself : out' a = out a ++ [some b])
    (hrest : ∀ c ∈ V, c ≠ a → out' c = out c) :
    draw V name data out' = link (draw V name data out) (name a) (name b) := by
  rw [link, draw, draw, List.map_map]
  apply List.map_congr_left
  intro c hc
  by_cases hca : c = a
  · subst hca
    simp [hself]
  · have hne : name c ≠ name a := fun h => hca (hinj c hc a ha h)
    simp [hne, hrest c hc hca]

lemma draw_without [DecidableEq κ] {q : Node κ α → Bool} {pick : A → Bool}
    (hq : ∀ a ∈ V, q ⟨name a, data a, (out a).map (Option.map name)⟩ = pick a) :
    draw (V.filter fun a => !pick a) name data (fun a => (out a).map (Option.filter fun c => !pick c)) =
      without (draw V name data out) q := by
  have hpicked : (draw V name data out).filter q = draw (V.filter pick) name data out := by
    rw [draw, draw, List.filter_map]
    congr 1
    exact List.filter_congr hq
  have hkept : ((draw V name data out).filter fun n => !q n) = draw (V.filter fun a => !pick a) name data out := by
    rw [draw, draw, List.filter_map]
    congr 1
    exact List.filter_congr fun a ha => congrArg not (hq a ha)
  have hhas (c : A) (hc : c ∈ V) : has (draw (V.filter pick) name data out) (name c) = pick c := by
    rw [Bool.eq_iff_iff, has_draw]
    constructor
    · rintro ⟨a, ha, hac⟩
      obtain ⟨haV, hpick⟩ := List.mem_filter.mp ha
      rwa [hinj a haV c hc hac] at hpick
    · exact fun h => ⟨c, List.mem_filter.mpr ⟨hc, h⟩, rfl⟩
  rw [without, hkept, hpicked]
  refine Eq.trans ?_ (List.map_map (l := V.filter fun a => !pick a)).symm
  apply List.map_congr_left
  intro a ha
  simp only [Function.comp_apply, List.map_map, Node.mk.injEq, true_and]
  apply List.map_congr_left
  intro t ht
  cases t with
  | none => rfl
  | some c =>
    have hc := hhas c (hin a (List.mem_filter.mp ha).1 c ht)
    simp only [Function.comp_apply, Option.map_some, Option.filter_some, hc]
    split_ifs <;> rfl

end Inside

end Plan

end DagScheduler.Library.Plans

import Mathlib.Tactic

/-! A heap of reference counted objects, addressed by numbers that are never reused. An object
lives while it has an owner; an address that is kept without owning it may outlive its object. -/

namespace DagScheduler.Library

structure SharedCell (α : Type) where
  value : α
  owners : ℕ

structure SharedHeap (α : Type) where
  cell : ℕ → Option (SharedCell α)
  next : ℕ
  unused : ∀ a, next ≤ a → cell a = none

namespace SharedHeap

variable {α : Type}

def empty : SharedHeap α := ⟨fun _ => none, 0, fun _ _ => rfl⟩

def value (h : SharedHeap α) (a : ℕ) : Option α := (h.cell a).map SharedCell.value

def owners (h : SharedHeap α) (a : ℕ) : ℕ := ((h.cell a).map SharedCell.owners).getD 0

/-- A new object with one owner; its address is `h.next`. -/
def makeShared (h : SharedHeap α) (v : α) : SharedHeap α where
  cell := Function.update h.cell h.next (some ⟨v, 1⟩)
  next := h.next + 1
  unused a ha := by
    rw [Function.update_of_ne (by omega)]
    exact h.unused a (by omega)

def mapCell (h : SharedHeap α) (a : ℕ) (f : SharedCell α → Option (SharedCell α)) :
    SharedHeap α where
  cell := Function.update h.cell a ((h.cell a).bind f)
  next := h.next
  unused b hb := by
    by_cases hab : b = a
    · subst hab
      simp [h.unused b hb]
    · rw [Function.update_of_ne hab]
      exact h.unused b hb

def modify (h : SharedHeap α) (a : ℕ) (f : α → α) : SharedHeap α :=
  h.mapCell a (fun c => some { c with value := f c.value })

def retain (h : SharedHeap α) (a : ℕ) : SharedHeap α :=
  h.mapCell a (fun c => some { c with owners := c.owners + 1 })

def release (h : SharedHeap α) (a : ℕ) : SharedHeap α :=
  h.mapCell a (fun c => if c.owners ≤ 1 then none else some { c with owners := c.owners - 1 })

def releaseAll (h : SharedHeap α) (as : List ℕ) : SharedHeap α := as.foldl release h

def retainAll (h : SharedHeap α) (as : List ℕ) : SharedHeap α := as.foldl retain h

lemma value_lt (h : SharedHeap α) {a : ℕ} {v : α} (hv : h.value a = some v) : a < h.next := by
  by_contra hn
  simp [value, h.unused a (by omega)] at hv

lemma value_of_cell_eq {h h' : SharedHeap α} {a : ℕ} (he : h'.cell a = h.cell a) :
    h'.value a = h.value a := by simp only [value, he]

lemma owners_of_cell_eq {h h' : SharedHeap α} {a : ℕ} (he : h'.cell a = h.cell a) :
    h'.owners a = h.owners a := by simp only [owners, he]

@[simp] lemma next_makeShared (h : SharedHeap α) (v : α) : (h.makeShared v).next = h.next + 1 := rfl
@[simp] lemma next_modify (h : SharedHeap α) (a : ℕ) (f : α → α) : (h.modify a f).next = h.next := rfl
@[simp] lemma next_retain (h : SharedHeap α) (a : ℕ) : (h.retain a).next = h.next := rfl
@[simp] lemma next_release (h : SharedHeap α) (a : ℕ) : (h.release a).next = h.next := rfl

@[simp] lemma cell_makeShared_self (h : SharedHeap α) (v : α) :
    (h.makeShared v).cell h.next = some ⟨v, 1⟩ := by simp [makeShared]

lemma cell_makeShared_ne (h : SharedHeap α) (v : α) {a : ℕ} (ha : a ≠ h.next) :
    (h.makeShared v).cell a = h.cell a := by simp [makeShared, Function.update_of_ne ha]

lemma cell_mapCell_self (h : SharedHeap α) (a : ℕ) (f : SharedCell α → Option (SharedCell α)) :
    (h.mapCell a f).cell a = (h.cell a).bind f := by simp [mapCell]

lemma cell_mapCell_ne (h : SharedHeap α) {a b : ℕ} (f : SharedCell α → Option (SharedCell α))
    (hb : b ≠ a) : (h.mapCell a f).cell b = h.cell b := by simp [mapCell, Function.update_of_ne hb]

lemma cell_modify_ne (h : SharedHeap α) {a b : ℕ} (f : α → α) (hb : b ≠ a) :
    (h.modify a f).cell b = h.cell b := h.cell_mapCell_ne _ hb

lemma cell_retain_ne (h : SharedHeap α) {a b : ℕ} (hb : b ≠ a) :
    (h.retain a).cell b = h.cell b := h.cell_mapCell_ne _ hb

lemma cell_release_ne (h : SharedHeap α) {a b : ℕ} (hb : b ≠ a) :
    (h.release a).cell b = h.cell b := h.cell_mapCell_ne _ hb

@[simp] lemma value_makeShared_self (h : SharedHeap α) (v : α) :
    (h.makeShared v).value h.next = some v := by simp [value]

lemma value_makeShared_ne (h : SharedHeap α) (v : α) {a : ℕ} (ha : a ≠ h.next) :
    (h.makeShared v).value a = h.value a := value_of_cell_eq (h.cell_makeShared_ne v ha)

lemma value_modify (h : SharedHeap α) (a b : ℕ) (f : α → α) :
    (h.modify a f).value b = if b = a then (h.value a).map f else h.value b := by
  split_ifs with hb
  · subst hb
    simp only [value, modify, cell_mapCell_self]
    cases h.cell b <;> simp
  · exact value_of_cell_eq (h.cell_modify_ne f hb)

@[simp] lemma value_retain (h : SharedHeap α) (a b : ℕ) : (h.retain a).value b = h.value b := by
  by_cases hb : b = a
  · subst hb
    simp only [value, retain, cell_mapCell_self]
    cases h.cell b <;> simp
  · exact value_of_cell_eq (h.cell_retain_ne hb)

lemma owners_modify (h : SharedHeap α) (a b : ℕ) (f : α → α) :
    (h.modify a f).owners b = h.owners b := by
  by_cases hb : b = a
  · subst hb
    simp only [owners, modify, cell_mapCell_self]
    cases h.cell b <;> simp
  · exact owners_of_cell_eq (h.cell_modify_ne f hb)

@[simp] lemma releaseAll_cons (h : SharedHeap α) (a : ℕ) (as : List ℕ) :
    h.releaseAll (a :: as) = (h.release a).releaseAll as := rfl

@[simp] lemma retainAll_cons (h : SharedHeap α) (a : ℕ) (as : List ℕ) :
    h.retainAll (a :: as) = (h.retain a).retainAll as := rfl

@[simp] lemma next_releaseAll (h : SharedHeap α) (as : List ℕ) : (h.releaseAll as).next = h.next := by
  induction as generalizing h with
  | nil => rfl
  | cons a as ih => rw [releaseAll_cons, ih, next_release]

@[simp] lemma next_retainAll (h : SharedHeap α) (as : List ℕ) : (h.retainAll as).next = h.next := by
  induction as generalizing h with
  | nil => rfl
  | cons a as ih => rw [retainAll_cons, ih, next_retain]

lemma cell_releaseAll_of_notMem (h : SharedHeap α) {a : ℕ} {as : List ℕ} (ha : a ∉ as) :
    (h.releaseAll as).cell a = h.cell a := by
  induction as generalizing h with
  | nil => rfl
  | cons b as ih =>
    obtain ⟨hb, has⟩ : a ≠ b ∧ a ∉ as := by simpa using ha
    rw [releaseAll_cons, ih _ has, h.cell_release_ne hb]

lemma cell_release_last (h : SharedHeap α) {a : ℕ} (ho : h.owners a ≤ 1) :
    (h.release a).cell a = none := by
  rw [release, cell_mapCell_self]
  cases hc : h.cell a with
  | none => rfl
  | some c =>
    have hle : c.owners ≤ 1 := by simpa [owners, hc] using ho
    simp [hle]

lemma cell_release_congr {h h' : SharedHeap α} {a : ℕ} (hc : h'.cell a = h.cell a) :
    (h'.release a).cell a = (h.release a).cell a := by
  simp only [release, cell_mapCell_self, hc]

lemma cell_retain_congr {h h' : SharedHeap α} {a : ℕ} (hc : h'.cell a = h.cell a) :
    (h'.retain a).cell a = (h.retain a).cell a := by
  simp only [retain, cell_mapCell_self, hc]

lemma cell_releaseAll_of_mem (h : SharedHeap α) {a : ℕ} {as : List ℕ} (hn : as.Nodup) (ha : a ∈ as) :
    (h.releaseAll as).cell a = (h.release a).cell a := by
  induction as generalizing h with
  | nil => exact absurd ha List.not_mem_nil
  | cons b as ih =>
    obtain ⟨hb, hn'⟩ := List.nodup_cons.mp hn
    rw [releaseAll_cons]
    rcases List.mem_cons.mp ha with rfl | ha
    · exact cell_releaseAll_of_notMem _ hb
    · have hab : a ≠ b := fun he => hb (he ▸ ha)
      rw [ih _ hn' ha, cell_release_congr (h.cell_release_ne hab)]

lemma cell_releaseAll_last (h : SharedHeap α) {a : ℕ} {as : List ℕ} (hn : as.Nodup) (ha : a ∈ as)
    (ho : h.owners a ≤ 1) : (h.releaseAll as).cell a = none := by
  rw [h.cell_releaseAll_of_mem hn ha, h.cell_release_last ho]

lemma cell_retainAll_of_notMem (h : SharedHeap α) {a : ℕ} {as : List ℕ} (ha : a ∉ as) :
    (h.retainAll as).cell a = h.cell a := by
  induction as generalizing h with
  | nil => rfl
  | cons b as ih =>
    obtain ⟨hb, has⟩ : a ≠ b ∧ a ∉ as := by simpa using ha
    rw [retainAll_cons, ih _ has, h.cell_retain_ne hb]

lemma cell_retainAll_of_mem (h : SharedHeap α) {a : ℕ} {as : List ℕ} (hn : as.Nodup) (ha : a ∈ as) :
    (h.retainAll as).cell a = (h.retain a).cell a := by
  induction as generalizing h with
  | nil => exact absurd ha List.not_mem_nil
  | cons b as ih =>
    obtain ⟨hb, hn'⟩ := List.nodup_cons.mp hn
    rw [retainAll_cons]
    rcases List.mem_cons.mp ha with rfl | ha
    · exact cell_retainAll_of_notMem _ hb
    · have hab : a ≠ b := fun he => hb (he ▸ ha)
      rw [ih _ hn' ha, cell_retain_congr (h.cell_retain_ne hab)]

lemma isSome_of_owners {h : SharedHeap α} {a : ℕ} (ha : 0 < h.owners a) : (h.value a).isSome := by
  simp only [owners, value, Option.isSome_map] at ha ⊢
  cases hc : h.cell a with
  | none => simp [hc] at ha
  | some c => rfl

lemma owners_retain_self (h : SharedHeap α) {a : ℕ} (ha : (h.value a).isSome) :
    (h.retain a).owners a = h.owners a + 1 := by
  simp only [owners, retain, cell_mapCell_self]
  cases hc : h.cell a with
  | none => simp [value, hc] at ha
  | some c => simp

lemma owners_retain_le (h : SharedHeap α) (a b : ℕ) : h.owners b ≤ (h.retain a).owners b := by
  by_cases hb : b = a
  · subst hb
    simp only [owners, retain, cell_mapCell_self]
    cases h.cell b <;> simp
  · rw [owners_of_cell_eq (h.cell_retain_ne hb)]

lemma owners_release_self (h : SharedHeap α) {a : ℕ} (ha : 1 < h.owners a) :
    (h.release a).owners a = h.owners a - 1 := by
  simp only [owners, release, cell_mapCell_self] at ha ⊢
  cases hc : h.cell a with
  | none => simp [hc] at ha
  | some c =>
    have hlt : ¬ c.owners ≤ 1 := by
      simp only [hc, Option.map_some, Option.getD_some] at ha
      omega
    simp [hlt]

lemma eq_of_cells {h h' : SharedHeap α} (hc : ∀ a, h'.cell a = h.cell a) (hn : h'.next = h.next) : h' = h := by
  obtain ⟨cell, next, unused⟩ := h
  obtain ⟨cell', next', unused'⟩ := h'
  obtain rfl : cell' = cell := funext hc
  obtain rfl : next' = next := hn
  rfl

lemma release_retain (h : SharedHeap α) {a : ℕ} (ha : 0 < h.owners a) : (h.retain a).release a = h := by
  apply eq_of_cells
  · intro b
    by_cases hb : b = a
    · subst hb
      simp only [owners, release, retain, cell_mapCell_self] at ha ⊢
      cases hc : h.cell b with
      | none => rfl
      | some c =>
        have hlt : ¬ c.owners + 1 ≤ 1 := by
          simp only [hc, Option.map_some, Option.getD_some] at ha
          omega
        simp [hlt]
    · rw [cell_release_ne _ hb, cell_retain_ne _ hb]
  · rfl

lemma value_release_shared (h : SharedHeap α) {a : ℕ} (ha : 1 < h.owners a) (b : ℕ) :
    (h.release a).value b = h.value b := by
  by_cases hb : b = a
  · subst hb
    simp only [owners, value, release, cell_mapCell_self] at ha ⊢
    cases hc : h.cell b with
    | none => rfl
    | some c =>
      have hlt : ¬ c.owners ≤ 1 := by
        simp only [hc, Option.map_some, Option.getD_some] at ha
        omega
      simp [hlt]
  · exact value_of_cell_eq (h.cell_release_ne hb)

@[simp] lemma value_retainAll (h : SharedHeap α) (as : List ℕ) (b : ℕ) :
    (h.retainAll as).value b = h.value b := by
  induction as generalizing h with
  | nil => rfl
  | cons a as ih => rw [retainAll_cons, ih, value_retain]

lemma owners_retainAll (h : SharedHeap α) {as : List ℕ} (hn : as.Nodup)
    (hlive : ∀ a ∈ as, (h.value a).isSome) (b : ℕ) :
    (h.retainAll as).owners b = h.owners b + if b ∈ as then 1 else 0 := by
  by_cases hb : b ∈ as
  · rw [owners_of_cell_eq (h.cell_retainAll_of_mem hn hb), h.owners_retain_self (hlive b hb), if_pos hb]
  · rw [owners_of_cell_eq (h.cell_retainAll_of_notMem hb), if_neg hb, Nat.add_zero]

lemma owners_le_retainAll (h : SharedHeap α) (as : List ℕ) (b : ℕ) : h.owners b ≤ (h.retainAll as).owners b := by
  induction as generalizing h with
  | nil => exact le_rfl
  | cons a as ih => exact (h.owners_retain_le a b).trans (ih (h.retain a))

lemma owners_lt_retainAll (h : SharedHeap α) {as : List ℕ} {a : ℕ} (ha : a ∈ as) (hpos : 0 < h.owners a) :
    h.owners a < (h.retainAll as).owners a := by
  induction as generalizing h with
  | nil => simp at ha
  | cons b as ih =>
    rw [retainAll_cons]
    rcases List.mem_cons.mp ha with rfl | ha
    · have hself := h.owners_retain_self (isSome_of_owners hpos)
      have hle := (h.retain a).owners_le_retainAll as a
      omega
    · have hle := h.owners_retain_le b a
      exact hle.trans_lt (ih (h.retain b) ha (hpos.trans_le hle))

lemma releaseAll_retainAll (h : SharedHeap α) {as : List ℕ} (hn : as.Nodup) (ho : ∀ a ∈ as, 0 < h.owners a) :
    (h.retainAll as).releaseAll as = h := by
  apply eq_of_cells
  · intro b
    by_cases hb : b ∈ as
    · rw [cell_releaseAll_of_mem _ hn hb, cell_release_congr (h.cell_retainAll_of_mem hn hb),
        h.release_retain (ho b hb)]
    · rw [cell_releaseAll_of_notMem _ hb, h.cell_retainAll_of_notMem hb]
  · simp

lemma cell_of_value (h : SharedHeap α) {a : ℕ} {v : α} (hv : h.value a = some v) :
    h.cell a = some ⟨v, h.owners a⟩ := by
  obtain ⟨c, hc, rfl⟩ := Option.map_eq_some_iff.mp hv
  simp [owners, hc]

lemma cell_eq_of_value (h : SharedHeap α) (h' : SharedHeap α) {a : ℕ} (hv : h'.value a = h.value a)
    (ho : h'.owners a = h.owners a) : h'.cell a = h.cell a := by
  simp only [value, owners] at hv ho
  cases hc : h.cell a with
  | none => simpa [hc] using hv
  | some c =>
    cases hc' : h'.cell a with
    | none => simp [hc, hc'] at hv
    | some c' =>
      obtain ⟨v, n⟩ := c
      obtain ⟨v', n'⟩ := c'
      simp_all

end SharedHeap

end DagScheduler.Library

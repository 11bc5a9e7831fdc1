import DagScheduler.Graphs.DynamicLibraryRegistry

/-! Libraries stay open, and names keep what they meant first. -/

namespace DagScheduler.Graphs

open Library.Transitions

namespace DynamicLibraryRegistry

variable {L σ π : Type} {r r' : DynamicLibraryRegistry L} {call : Registration L} {item : RegistryItem L} {l : L}
  {name : String}

lemma mem_of_find (h : r.find name = some item) : item ∈ r.registery ∧ item.libraryName = name :=
  ⟨List.mem_of_find?_eq_some h, of_decide_eq_true (List.find?_some h :)⟩

variable [DecidableEq L]

lemma unload_load (r : DynamicLibraryRegistry L) (l : L) : (r.load l).unload l = r := by
  rw [unload, load]
  simp

lemma unload_insert (r : DynamicLibraryRegistry L) (item : RegistryItem L) :
    ((r.load item.sharedLibrary).insert item).unload item.sharedLibrary = r.insert item := by
  simp [unload, insert, load]

inductive Registers (r : DynamicLibraryRegistry L) (call : Registration L) :
    Except Exception (RegistryItem L) → DynamicLibraryRegistry L → Prop
  | unopened {what : String} (hopened : call.opened = .error what) :
      Registers r call (.error (.runtimeError ("Could not load library from " ++ call.libraryName ++ " with " ++
        what ++ " with: " ++ what))) r
  | known {l : L} {item : RegistryItem L} (hopened : call.opened = .ok l)
      (hfind : r.find call.libraryName = some item) : Registers r call (.ok item) r
  | uncopied {l : L} {what : String} (hopened : call.opened = .ok l) (hfind : r.find call.libraryName = none)
      (hreopened : call.reopened = .error what) : Registers r call (.error (.systemError what)) r
  | added {l : L} (hopened : call.opened = .ok l) (hfind : r.find call.libraryName = none) :
      Registers r call (.ok ⟨call.libraryName, l⟩) (r.insert ⟨call.libraryName, l⟩)

lemma find_load (r : DynamicLibraryRegistry L) (l : L) (name : String) : (r.load l).find name = r.find name := rfl

lemma registers (r : DynamicLibraryRegistry L) (call : Registration L) :
    Registers r call (r.registerDynamicLibrary call).1 (r.registerDynamicLibrary call).2 := by
  cases hopened : call.opened with
  | error what =>
    simp only [registerDynamicLibrary, hopened]
    exact .unopened hopened
  | ok l =>
    simp only [registerDynamicLibrary, hopened, find_load]
    cases hfind : r.find call.libraryName with
    | some item =>
      simp only [unload_load]
      exact .known hopened hfind
    | none =>
      cases hreopened : call.reopened with
      | error what =>
        simp only [unload_load]
        exact .uncopied hopened hfind hreopened
      | ok u =>
        simp only [unload_insert r ⟨call.libraryName, l⟩]
        exact .added hopened hfind

/-! Each step adds one item, or none. -/

lemma find_insert_self (hfind : r.find name = none) : (r.insert ⟨name, l⟩).find name = some ⟨name, l⟩ := by
  rw [find, List.find?_eq_none] at hfind
  simp only [find, insert, List.find?_append]
  rw [List.find?_eq_none.mpr hfind]
  simp

lemma find_insert_of_some (hfind : r.find name = some item) (added : RegistryItem L) :
    (r.insert added).find name = some item := by
  rw [find] at hfind
  simp [find, insert, List.find?_append, hfind]

lemma Registers.keeps_or_adds {res : Except Exception (RegistryItem L)} (h : Registers r call res r') :
    r' = r ∨ ∃ l, r.find call.libraryName = none ∧ res = .ok ⟨call.libraryName, l⟩ ∧
      r' = r.insert ⟨call.libraryName, l⟩ := by
  cases h with
  | unopened | known | uncopied => exact .inl rfl
  | added hopened hfind => exact .inr ⟨_, hfind, rfl, rfl⟩

/-- A name that has been answered once has its item from then on. -/
lemma Registers.find_answered {res : Except Exception (RegistryItem L)} (h : Registers r call res r')
    (hres : res = .ok item) : r'.find call.libraryName = some item := by
  cases h with
  | unopened | uncopied => cases hres
  | known hopened hfind => exact Except.ok.inj hres ▸ hfind
  | added hopened hfind => exact Except.ok.inj hres ▸ find_insert_self hfind

lemma Registers.find_kept {res : Except Exception (RegistryItem L)} (h : Registers r call res r')
    (hfind : r.find name = some item) : r'.find name = some item := by
  rcases h.keeps_or_adds with rfl | ⟨l, -, -, rfl⟩
  · exact hfind
  · exact find_insert_of_some hfind _

/-- The items are those that calls have returned, no two of one name, each with its library open once. -/
structure Holds (h : List (DynamicLibraryRegistry L × Registration L)) (r : DynamicLibraryRegistry L) : Prop where
  nodup : (r.registery.map RegistryItem.libraryName).Nodup
  handles : ∀ l, r.handles l = (r.registery.map RegistryItem.sharedLibrary).count l
  answered : ∀ item ∈ r.registery, ∃ e ∈ h, answer e = .ok item
  found : ∀ e ∈ h, ∀ item, answer e = .ok item → r.find e.2.libraryName = some item

variable {h : List (DynamicLibraryRegistry L × Registration L)}

lemma nodup_insert (hnodup : (r.registery.map RegistryItem.libraryName).Nodup) (hfind : r.find name = none) :
    ((r.insert ⟨name, l⟩).registery.map RegistryItem.libraryName).Nodup := by
  rw [find, List.find?_eq_none] at hfind
  rw [insert, List.map_append, List.nodup_append]
  refine ⟨hnodup, List.nodup_singleton _, ?_⟩
  rintro a ha b hb rfl
  obtain ⟨item, hitem, rfl⟩ := List.mem_map.mp ha
  exact hfind item hitem (decide_eq_true (List.mem_singleton.mp hb))

lemma handles_insert (hhandles : ∀ l, r.handles l = (r.registery.map RegistryItem.sharedLibrary).count l)
    (added : RegistryItem L) (l : L) : (r.insert added).handles l =
      ((r.insert added).registery.map RegistryItem.sharedLibrary).count l := by
  simp only [insert, load, List.map_append, List.count_append, List.map_singleton, List.count_singleton, ← hhandles]
  by_cases hl : l = added.sharedLibrary
  · simp [hl]
  · simp [hl, Ne.symm hl]

lemma Holds.step (hr : Holds h r) (call : Registration L) :
    Holds (h ++ [(r, call)]) (r.registerDynamicLibrary call).2 := by
  have hregisters := registers r call
  have hfound : ∀ e ∈ h ++ [(r, call)], ∀ item, answer e = .ok item →
      (r.registerDynamicLibrary call).2.find e.2.libraryName = some item := by
    intro e he item hitem
    rcases List.mem_append.mp he with he | he
    · exact hregisters.find_kept (hr.found e he item hitem)
    · obtain rfl := List.mem_singleton.mp he
      exact hregisters.find_answered hitem
  have hanswered : ∀ item ∈ r.registery, ∃ e ∈ h ++ [(r, call)], answer e = .ok item := by
    intro item hitem
    obtain ⟨e, he, ha⟩ := hr.answered item hitem
    exact ⟨e, List.mem_append_left _ he, ha⟩
  rcases hregisters.keeps_or_adds with hsame | ⟨l, hfind, hres, hadds⟩
  · rw [hsame] at hfound ⊢
    exact ⟨hr.nodup, hr.handles, hanswered, hfound⟩
  · rw [hadds] at hfound ⊢
    refine ⟨nodup_insert hr.nodup hfind, handles_insert hr.handles _, fun item hitem => ?_, hfound⟩
    rcases List.mem_append.mp hitem with hitem | hitem
    · exact hanswered item hitem
    · obtain rfl := List.mem_singleton.mp hitem
      exact ⟨(r, call), by simp, hres⟩

lemma holds (run : system.Run h r) : Holds h r := by
  induction run with
  | start => exact ⟨List.nodup_nil, fun _ => rfl, by simp [system], by simp⟩
  | step _ hs ih =>
    obtain rfl := Option.some.inj hs
    exact ih.step _

/-- In every run the items are what calls have returned, under the name that was asked for; calls that succeed
for one name return the same item; and each item has its library open, once, whatever the loader says later. -/
theorem stays_open (run : system.Run h r) :
    (∀ item, item ∈ r.registery ↔ ∃ e ∈ h, answer e = .ok item) ∧
    (∀ e ∈ h, ∀ item, answer e = .ok item → item.libraryName = e.2.libraryName ∧ 0 < r.handles item.sharedLibrary) ∧
    (∀ e ∈ h, ∀ e' ∈ h, ∀ item item', answer e = .ok item → answer e' = .ok item' →
      (e.2.libraryName = e'.2.libraryName ↔ item = item')) ∧
    ∀ l, r.handles l = (r.registery.map RegistryItem.sharedLibrary).count l := by
  have hr := holds run
  have hmem : ∀ e ∈ h, ∀ item, answer e = .ok item → item ∈ r.registery ∧ item.libraryName = e.2.libraryName :=
    fun e he item hitem => mem_of_find (hr.found e he item hitem)
  refine ⟨fun item => ⟨hr.answered item, ?_⟩, fun e he item hitem => ⟨(hmem e he item hitem).2, ?_⟩, ?_, hr.handles⟩
  · rintro ⟨e, he, hitem⟩
    exact (hmem e he item hitem).1
  · rw [hr.handles]
    exact List.count_pos_iff.mpr (List.mem_map_of_mem (hmem e he item hitem).1)
  · intro e he e' he' item item' hitem hitem'
    constructor
    · intro hname
      have hfound := hr.found e' he' item' hitem'
      rw [← hname, hr.found e he item hitem] at hfound
      exact Option.some.inj hfound
    · rintro rfl
      exact (hmem e he item hitem).2.symm.trans (hmem e' he' item hitem').2

/-- The items hold what the loader would answer to their names. -/
def Current (dll : Dll L σ π) (r : DynamicLibraryRegistry L) : Prop :=
  ∀ item ∈ r.registery, dll.sharedLibrary item.libraryName = .ok item.sharedLibrary

lemma Current.step {dll : Dll L σ π} (hr : Current dll r) (hopened : call.opened = dll.sharedLibrary call.libraryName)
    (hreopened : call.reopened = .ok ()) : Current dll (r.registerDynamicLibrary call).2 ∧
      answer (r, call) = Graphs.registerDynamicLibrary dll call.libraryName := by
  have hregisters := registers r call
  rw [answer]
  generalize (r.registerDynamicLibrary call).1 = res, (r.registerDynamicLibrary call).2 = r' at hregisters ⊢
  rw [Graphs.registerDynamicLibrary]
  cases hregisters with
  | unopened hfails =>
    rw [← hopened, hfails]
    exact ⟨hr, rfl⟩
  | uncopied _ _ hfails => exact absurd (hfails.symm.trans hreopened) (by simp)
  | known hopens hfind =>
    obtain ⟨hmem, hname⟩ := mem_of_find hfind
    have hitem := hr _ hmem
    rw [hname] at hitem
    rw [hitem, ← hname]
    exact ⟨hr, rfl⟩
  | added hopens =>
    rw [← hopened, hopens]
    refine ⟨fun item hitem => ?_, rfl⟩
    rcases List.mem_append.mp hitem with hitem | hitem
    · exact hr item hitem
    · obtain rfl := List.mem_singleton.mp hitem
      exact hopened.symm.trans hopens

/-- Where the loader does not change its mind, no call can tell that there is a registry. -/
theorem answers_as_loader {dll : Dll L σ π} (run : system.Run h r)
    (hopened : ∀ e ∈ h, e.2.opened = dll.sharedLibrary e.2.libraryName) (hreopened : ∀ e ∈ h, e.2.reopened = .ok ()) :
    ∀ e ∈ h, answer e = Graphs.registerDynamicLibrary dll e.2.libraryName := by
  have hrun : Current dll r ∧ ∀ e ∈ h, answer e = Graphs.registerDynamicLibrary dll e.2.libraryName := by
    induction run with
    | start => exact ⟨by simp [Current, system], by simp⟩
    | @step h r r' call _ hs ih =>
      obtain rfl := Option.some.inj hs
      obtain ⟨hr, hall⟩ := ih (fun e he => hopened e (List.mem_append_left _ he))
        (fun e he => hreopened e (List.mem_append_left _ he))
      obtain ⟨hr', hlast⟩ := hr.step (hopened (r, call) (by simp)) (hreopened (r, call) (by simp))
      refine ⟨hr', fun e he => ?_⟩
      rcases List.mem_append.mp he with he | he
      · exact hall e he
      · obtain rfl := List.mem_singleton.mp he
        exact hlast
  exact hrun.2

end DynamicLibraryRegistry

namespace Sample

open DynamicLibraryRegistry

def stagesAt (library : ℕ) : Registration ℕ := ⟨"libstages.so", .ok library, .ok ()⟩

def registered : DynamicLibraryRegistry ℕ := (system.start.registerDynamicLibrary (stagesAt 1)).2

/-- By the second call there is another file under the name. -/
def registrations : List (DynamicLibraryRegistry ℕ × Registration ℕ) :=
  [(system.start, stagesAt 1), (registered, stagesAt 2)]

lemma registered_run : system.Run registrations (registered.registerDynamicLibrary (stagesAt 2)).2 :=
  .step (.step .start rfl) rfl

def oneLibrary : Dll ℕ Unit Unit where
  sharedLibrary _ := .ok 1
  symbols _ _ := .error ""
  stageCreator _ _ := .error ""
  callback _ _ := .error ""
  plugin _ _ := .error ""
  base := ()

end Sample

namespace DynamicLibraryRegistry

theorem stays_open_sample :
    (∀ item, item ∈ (Sample.registered.registerDynamicLibrary (Sample.stagesAt 2)).2.registery ↔
      ∃ e ∈ Sample.registrations, answer e = .ok item) ∧
    answer (Sample.registered, Sample.stagesAt 2) = .ok ⟨"libstages.so", 1⟩ :=
  ⟨(stays_open Sample.registered_run).1, rfl⟩

theorem answers_as_loader_sample :
    answer (Sample.registered, Sample.stagesAt 1) = Graphs.registerDynamicLibrary Sample.oneLibrary "libstages.so" := by
  have run : system.Run ([] ++ [(system.start, Sample.stagesAt 1)] ++ [(Sample.registered, Sample.stagesAt 1)])
      (Sample.registered.registerDynamicLibrary (Sample.stagesAt 1)).2 := .step (.step .start rfl) rfl
  exact answers_as_loader run (by simp [Sample.stagesAt, Sample.oneLibrary]) (by simp [Sample.stagesAt])
    (Sample.registered, Sample.stagesAt 1) (by simp)

end DynamicLibraryRegistry

end DagScheduler.Graphs

import DagScheduler.SchedulingProofs.OwnershipProofs
import DagScheduler.SchedulingProofs.WorkerProofs

/-! When a call of `startup` can get to the head of the queue: as long as it has popped nothing. -/

namespace DagScheduler.Scheduling

open Graphs Library.Transitions

variable {σ π : Type}

namespace TaskScheduler

variable {s t u : TaskScheduler σ π} {i : ℕ} {l x : Startup σ π} {job : Job σ π}
  {rest : List (Option (Job σ π))} {k : Fin 10} {thread : TaskThread σ π}

def Action.Own (i : ℕ) (a : Action σ π) : Prop :=
  a = .loop i ∨ (∃ k, a = .wake k) ∨ ∃ k w outcome, a = .work k w outcome

lemma head_loop (halive : s.Alive) (hl : s.startups[i]? = some l) (hs : s.loop i l = some t)
    (rest : system.Leads (Action.Own i) t u) : system.Leads (Action.Own i) s u := by
  apply System.Leads.head (.inl rfl) _ rest
  simpa [system, TaskScheduler.step, halive, hl] using hs

lemma put_put (l x : Startup σ π) : (s.put i l).put i x = s.put i x := by
  simp [put]

lemma put_self (hl : s.startups[i]? = some l) : s.put i l = s := by
  obtain ⟨hi, rfl⟩ := List.getElem?_eq_some_iff.mp hl
  simp [put]

lemma put_startups (hl : s.startups[i]? = some l) (x : Startup σ π) : (s.put i x).startups[i]? = some x :=
  set_self hl

lemma Alive.setThread (h : s.Alive) (hf : thread.fault = none) : (s.setThread k thread).Alive := by
  refine ⟨h.1, fun j => ?_⟩
  by_cases hj : j = k
  · subst hj
    simpa using hf
  · rw [setThread_of_ne hj]
    exact h.2 j

lemma leads_thread (halive : s.Alive)
    (hl : TaskThread.system.Leads TaskThread.Action.IsWork (s.threadPool k) thread)
    (hf : thread.fault = none) : system.Leads (Action.Own i) s (s.setThread k thread) := by
  generalize hk : s.threadPool k = first at hl
  induction hl generalizing s with
  | refl =>
    subst hk
    rw [show s.setThread k (s.threadPool k) = s by simp [setThread]]
    exact .refl s
  | @head _ next last a ha hs hrest ih =>
    obtain ⟨w, outcome, rfl⟩ := ha
    have hnext : next.fault = none := by
      cases hrest with
      | refl => exact hf
      | head _ hs' _ => exact TaskThread.step_fault hs'
    have hlast : (s.setThread k next).setThread k last = s.setThread k last := by
      simp [setThread]
    have hstep : s.step (.work k w outcome) = some (s.setThread k next) := by
      subst hk
      have hs : (s.threadPool k).step (.work w outcome) = some next := hs
      simp [TaskScheduler.step, halive, hs]
    exact .head (.inr (.inr ⟨k, w, outcome, rfl⟩)) hstep (hlast ▸ ih (halive.setThread hnext) hf setThread_self)

def Held (s : TaskScheduler σ π) : Prop :=
  s.threadPoolLock = true → ∃ (i : ℕ) (l : Startup σ π), s.startups[i]? = some l ∧ l.pc.locks = true

lemma Held.put (h : s.Held) (hl : s.startups[i]? = some l) (hlocks : l.pc.locks = true → x.pc.locks = true)
    (hset : t.startups = s.startups.set i x) (hlock : t.threadPoolLock = s.threadPoolLock) : t.Held := by
  intro ht
  obtain ⟨j, l', hj, hl'⟩ := h (hlock ▸ ht)
  by_cases hji : j = i
  · subst hji
    obtain rfl := Option.some.inj (hl.symm.trans hj)
    exact ⟨j, x, hset ▸ set_self hl, hlocks hl'⟩
  · exact ⟨j, l', hset ▸ set_of_ne hji hj, hl'⟩

lemma Held.moves {a : Action σ π} (h : s.Held) (hm : s.Moves a t) : t.Held := by
  cases hm with
  | queueTask | null | unlink | flags | proceed | thread => exact h
  | startup =>
    intro ht
    obtain ⟨j, l', hj, hl'⟩ := h ht
    exact ⟨j, l', (List.getElem?_append_left (List.getElem?_eq_some_iff.mp hj).1).trans hj, hl'⟩
  | pass j l' pc p k hj locks => exact h.put hj (fun hl => locks.trans hl) rfl rfl
  | lock j l' pc hj free locks => exact fun _ => ⟨j, _, set_self hj, locks⟩
  | unlock | «return» => exact fun ht => absurd ht (by simp)
  | popNull j l' rest hj pc => exact h.put hj (by simp [pc, LoopPc.locks]) rfl rfl
  | pop j l' job rest hj pc => exact h.put hj (by simp [pc, LoopPc.locks]) rfl rfl
  | leave j l' hj locks => exact h.put hj (by simp [locks]) rfl rfl
  | dispatch j l' k job thread hj pc => exact h.put hj (fun _ => rfl) rfl rfl

lemma held (h : (system (σ := σ) (π := π)).Reachable s) : s.Held := by
  apply h.invariant
  · simp [Held, system, init]
  · exact fun _ _ _ hI hs => hI.moves (step_cases hs).2

lemma leads_polling (halive : s.Alive) (hl : s.startups[i]? = some l) (hout : l.pc.outside = true)
    (hpc : l.pc ≠ .returned) (hkill : s.kill = false) (hpause : s.pause = false) :
    system.Leads (Action.Own i) s (s.put i ⟨.polling, l.nextTask⟩) := by
  obtain ⟨pc, n⟩ := l
  have hgo : ∀ pc pc', (s.put i ⟨pc, n⟩).loop i ⟨pc, n⟩ = some (s.put i ⟨pc', n⟩) →
      system.Leads (Action.Own i) (s.put i ⟨pc', n⟩) (s.put i ⟨.polling, n⟩) →
      system.Leads (Action.Own i) (s.put i ⟨pc, n⟩) (s.put i ⟨.polling, n⟩) :=
    fun pc pc' hs hrest => head_loop halive (put_startups hl _) hs hrest
  have hpolling : system.Leads (Action.Own i) (s.put i ⟨.polling, n⟩) (s.put i ⟨.polling, n⟩) := .refl _
  have hcheckPause := hgo .checkPause .polling (by simp [loop, put, hpause]) hpolling
  have hcheckKill := hgo .checkKill .checkPause (by simp [loop, put, hkill]) hcheckPause
  have houter := hgo .outer .checkKill (by simp [loop, put, hkill]) hcheckKill
  have hunpaused := hgo .unpaused .outer (by simp [loop, put, hkill]) houter
  have hstarting := hgo .starting .unpaused (by simp [loop, put, hpause]) hunpaused
  rw [← put_self hl, put_put]
  cases pc with
  | starting => exact hstarting
  | unpaused => exact hunpaused
  | outer => exact houter
  | checkKill => exact hcheckKill
  | checkPause => exact hcheckPause
  | polling => exact hpolling
  | returned => exact absurd rfl hpc
  | _ => simp [LoopPc.outside] at hout

lemma leads_dispatch (halive : s.Alive) (hl : s.startups[i]? = some l) (hpc : l.pc = .polling)
    (hkill : s.kill = false) (hpause : s.pause = false) (hlock : s.threadPoolLock = false)
    (hqueue : s.queue = some job :: rest) (hcall : (s.threadPool 0).call = .idle)
    (hrunning : (s.threadPool 0).running = false) (htask : (s.threadPool 0).locked = false) :
    ∃ t, system.Leads (Action.Own i) s t ∧ ∃ d ∈ t.dispatched, d.ticket = job.ticket := by
  let popped : TaskScheduler σ π := { s with queue := rest }
  let locked : TaskScheduler σ π := { popped with threadPoolLock := true }
  have hat : ∀ pc, (popped.put i ⟨pc, some job⟩).startups[i]? = some ⟨pc, some job⟩ :=
    fun pc => put_startups (s := popped) hl _
  obtain ⟨thread, hthread⟩ : ∃ thread, (s.threadPool 0).step (.setTaskAndRun (some job)) = some thread := by
    simp [TaskThread.step, halive.2 0, hcall, htask]
  have hlocked := head_loop (s := locked.put i ⟨.locked 0, some job⟩) halive (hat _)
    (by simp [loop, put, locked, popped, hthread]; rfl) (.refl _)
  have hacquiring := head_loop (s := popped.put i ⟨.acquiring 0, some job⟩) halive (hat _)
    (by simp [loop, put, locked, popped, hlock]) hlocked
  have hfound := head_loop (s := popped.put i ⟨.found 0, some job⟩) halive (hat _)
    (by simp [loop, put, popped, hkill]) hacquiring
  have hscanning := head_loop (s := locked.put i ⟨.scanning 0, some job⟩) halive (hat _)
    (by simp [loop, put, locked, popped, hrunning, hlock]) hfound
  have hlocking := head_loop (s := popped.put i ⟨.locking, some job⟩) halive (hat _)
    (by simp [loop, put, locked, popped, hlock]) hscanning
  have hpause' := head_loop (s := popped.put i ⟨.innerPause, some job⟩) halive (hat _)
    (by simp [loop, put, popped, hpause]) hlocking
  have hinner := head_loop (s := popped.put i ⟨.inner, some job⟩) halive (hat _)
    (by simp [loop, put, popped, hkill]) hpause'
  have hpolling := head_loop (s := s) halive hl (by simp [loop, put, popped, hpc, hqueue]) hinner
  exact ⟨_, hpolling, ⟨i, 0, job.ticket⟩, by simp, rfl⟩

structure Inside (i : ℕ) (p : Option (Job σ π)) (s : TaskScheduler σ π) : Prop where
  inner : ∃ l, s.startups[i]? = some l ∧ l.pc.outside = false
  kill : s.kill = false
  queue : p ∈ s.queue

lemma Inside.moves {p : Option (Job σ π)} {a : Action σ π} (h : s.Inside i p) (ha : a.Own i)
    (hm : s.Moves a t) : t.Inside i p := by
  obtain ⟨⟨l, hl, hout⟩, hkill, hqueue⟩ := h
  have hloop : ∀ j l', a = .loop j → s.startups[j]? = some l' → j = i ∧ l' = l := by
    rintro j l' rfl hj
    obtain rfl : j = i := by simpa [Action.Own] using ha
    exact ⟨rfl, Option.some.inj (hj.symm.trans hl)⟩
  cases hm with
  | queueTask | null | unlink | startup => simp [Action.Own] at ha
  | flags p k n flag =>
    rcases ha with rfl | ⟨k, rfl⟩ | ⟨k, w, outcome, rfl⟩ <;> simp [Action.flag] at flag
  | pass j l' pc p k hj locks outside calling calling' same =>
    obtain ⟨rfl, rfl⟩ := hloop j l' rfl hj
    refine ⟨⟨_, set_self hl, outside.trans hout⟩, ?_, hqueue⟩
    rcases same with hpc | hpc | ⟨-, hk⟩
    · simp [hpc, LoopPc.outside] at hout
    · simp [hpc, LoopPc.outside] at hout
    · exact hk.trans hkill
  | lock j l' pc hj free locks outside =>
    obtain ⟨rfl, rfl⟩ := hloop j l' rfl hj
    exact ⟨⟨_, set_self hl, outside.trans hout⟩, hkill, hqueue⟩
  | unlock j l' pc hj locks locks' outside =>
    obtain ⟨rfl, rfl⟩ := hloop j l' rfl hj
    exact ⟨⟨_, set_self hl, outside.trans hout⟩, hkill, hqueue⟩
  | popNull j l' rest hj pc =>
    obtain ⟨rfl, rfl⟩ := hloop j l' rfl hj
    simp [pc, LoopPc.outside] at hout
  | pop j l' job rest hj pc =>
    obtain ⟨rfl, rfl⟩ := hloop j l' rfl hj
    simp [pc, LoopPc.outside] at hout
  | leave j l' hj locks kill => simp [hkill] at kill
  | dispatch j l' k job thread hj pc =>
    obtain ⟨rfl, rfl⟩ := hloop j l' rfl hj
    exact ⟨⟨_, set_self hl, rfl⟩, hkill, hqueue⟩
  | proceed j l' k thread hj pc => exact ⟨⟨l, hl, hout⟩, hkill, hqueue⟩
  | «return» j l' k thread hj pc =>
    obtain ⟨rfl, rfl⟩ := hloop j l' rfl hj
    exact ⟨⟨_, set_self hl, rfl⟩, hkill, hqueue⟩
  | thread k b thread => exact ⟨⟨l, hl, hout⟩, hkill, hqueue⟩

lemma not_dispatched (hr : (system (σ := σ) (π := π)).Reachable s) (hqueue : some job ∈ s.queue) :
    ∀ d ∈ s.dispatched, d.ticket ≠ job.ticket := by
  intro d hd hticket
  have howners := owners_le_one job.ticket hr
  have hin : 0 < (Job.tickets s.queue).count job.ticket := by
    apply List.count_pos_iff.mpr
    exact List.mem_flatMap.mpr ⟨some job, hqueue, by simp⟩
  have hout : 0 < (s.dispatched.map Dispatch.ticket).count job.ticket :=
    List.count_pos_iff.mpr (List.mem_map.mpr ⟨d, hd, hticket⟩)
  simp only [owners] at howners
  omega

lemma Inside.not_dispatched (h : s.Inside i (some job)) (hr : (system (σ := σ) (π := π)).Reachable s)
    (hst : system.Leads (Action.Own i) s t) : ∀ d ∈ t.dispatched, d.ticket ≠ job.ticket := by
  have hinside : t.Inside i (some job) := by
    refine hst.invariant ?_ hr h
    exact fun s a t _ ha hI hs => hI.moves ha (step_cases hs).2
  exact TaskScheduler.not_dispatched (hst.reachable hr) hinside.queue

end TaskScheduler

/-- The head of the queue can be handed to a thread exactly as long as the call of `startup` has not
popped a task before, and nothing went wrong. -/
theorem head_dispatched_iff {s : TaskScheduler σ π} {i : ℕ} {l : Startup σ π} {job : Job σ π}
    {rest : List (Option (Job σ π))} (h : TaskScheduler.system.Reachable s) (hl : s.startups[i]? = some l)
    (hpc : l.pc ≠ .returned)
    (hothers : ∀ (j : ℕ) (l' : Startup σ π), s.startups[j]? = some l' → j ≠ i → l'.pc = .returned)
    (hkill : s.kill = false) (hpause : s.pause = false) (hqueue : s.queue = some job :: rest) :
    (∃ t, TaskScheduler.system.Leads (TaskScheduler.Action.Own i) s t ∧
      ∃ d ∈ t.dispatched, d.ticket = job.ticket) ↔ s.Alive ∧ l.pc.outside = true := by
  constructor
  · rintro ⟨t, hst, d, hd, hticket⟩
    constructor
    · by_contra hdead
      cases hst with
      | refl =>
        exact TaskScheduler.not_dispatched h (by simp [hqueue]) d hd hticket
      | head _ hs _ => exact hdead (TaskScheduler.step_cases hs).1
    · by_contra hout
      have hinside : s.Inside i (some job) := ⟨⟨l, hl, by simpa using hout⟩, hkill, by simp [hqueue]⟩
      exact hinside.not_dispatched h hst d hd hticket
  · rintro ⟨halive, hout⟩
    have hmine : ∀ (j : ℕ) (l' : Startup σ π), s.startups[j]? = some l' →
        l'.pc.locks = false ∧ l'.pc.calling = none := by
      intro j l' hj
      by_cases hji : j = i
      · subst hji
        obtain rfl := Option.some.inj (hl.symm.trans hj)
        cases hp : l.pc <;> simp [hp, LoopPc.outside] at hout <;> exact ⟨rfl, rfl⟩
      · rw [hothers j l' hj hji]
        exact ⟨rfl, rfl⟩
    have hlock : s.threadPoolLock = false := by
      by_contra hc
      obtain ⟨j, l', hj, hlocks⟩ := TaskScheduler.held h (by simpa using hc)
      simp [(hmine j l' hj).1] at hlocks
    have hidle : (s.threadPool 0).call = .idle := by
      by_contra hc
      obtain ⟨j, l', hj, hcalling⟩ := (TaskScheduler.guarded h).busy 0 hc
      simp [(hmine j l' hj).2] at hcalling
    obtain ⟨thread, hworks, hf, hcall, hrunning, htask⟩ :=
      TaskThread.leads_free ((TaskScheduler.given h).reachable 0) (halive.2 0) hidle (TaskScheduler.undisturbed h 0)
    have halive' := halive.setThread (k := 0) hf
    have hpolling := TaskScheduler.leads_polling (s := s.setThread 0 thread) halive' hl hout hpc hkill hpause
    have hthread : ((s.setThread 0 thread).put i ⟨.polling, l.nextTask⟩).threadPool 0 = thread := by
      simp [TaskScheduler.put, TaskScheduler.setThread]
    obtain ⟨t, hdispatch, hd⟩ := TaskScheduler.leads_dispatch (s := (s.setThread 0 thread).put i ⟨.polling, l.nextTask⟩)
      halive' (TaskScheduler.put_startups (s := s.setThread 0 thread) hl _) rfl hkill hpause hlock hqueue
      (hthread ▸ hcall) (hthread ▸ hrunning) (hthread ▸ htask)
    exact ⟨t, (TaskScheduler.leads_thread halive hworks hf).trans (hpolling.trans hdispatch), hd⟩

/-! The first of two tasks is dispatched, and then the second one cannot be. -/

namespace Sample

def ready : TaskScheduler Unit Unit :=
  (TaskScheduler.system.exec TaskScheduler.init
    ([.queueTask (some Graphs.Sample.task₁), .startup] ++ steps 2 (.loop 0))).get (by decide +kernel)

lemma one_startup {j : ℕ} (h : j ≠ 0) : ready.startups[j]? = none := by
  have hlen : ready.startups.length = 1 := by decide +kernel
  exact List.getElem?_eq_none (by omega)

def wedge : List Client :=
  [.queueTask (some Graphs.Sample.task₁), .queueTask (some Graphs.Sample.task₂), .startup] ++
    steps 16 (.loop 0) ++ steps 2 (.work first 0 true) ++ steps 1 (.loop 0) ++ steps 12 (.work first 0 true)

end Sample

theorem head_dispatched_fails :
    ∃ (s : TaskScheduler Unit Unit) (job : Job Unit Unit), TaskScheduler.system.Reachable s ∧
      s.startups.length = 1 ∧ s.kill = false ∧ s.pause = false ∧ s.Alive ∧ s.queue = [some job] ∧
      s.completed 0 = 1 ∧ ¬ ∃ t, TaskScheduler.system.Leads (TaskScheduler.Action.Own 0) s t ∧
        ∃ d ∈ t.dispatched, d.ticket = job.ticket := by
  have hany : (TaskScheduler.system.exec (TaskScheduler.init : TaskScheduler Unit Unit) Sample.wedge).any
      (fun s => s.startups.map Startup.pc = [.inner] ∧ s.kill = false ∧ s.pause = false ∧ s.Alive ∧
        s.queue.map Option.isSome = [true] ∧ s.completed 0 = 1) = true := by decide +kernel
  obtain ⟨s, hs, hp⟩ := System.exec_any hany
  obtain ⟨hpc, hkill, hpause, halive, hqueue, hcompleted⟩ := of_decide_eq_true hp
  have hr : TaskScheduler.system.Reachable s := System.exec_reachable hs
  obtain ⟨p, hp, hsome⟩ := List.map_eq_singleton_iff.mp hqueue
  obtain ⟨job, rfl⟩ := Option.isSome_iff_exists.mp hsome
  obtain ⟨l, hl, hinner⟩ := List.map_eq_singleton_iff.mp hpc
  refine ⟨s, job, hr, by simp [hl], hkill, hpause, halive, hp, hcompleted, ?_⟩
  rintro ⟨t, hst, d, hd, hticket⟩
  have hinside : s.Inside 0 (some job) := ⟨⟨l, by simp [hl], by rw [hinner]; rfl⟩, hkill, by simp [hp]⟩
  exact hinside.not_dispatched hr hst d hd hticket

theorem head_dispatched_sample :
    (∃ t, TaskScheduler.system.Leads (TaskScheduler.Action.Own 0) Sample.ready t ∧
      ∃ d ∈ t.dispatched, d.ticket = 0) ↔ Sample.ready.Alive ∧ LoopPc.outer.outside = true :=
  head_dispatched_iff (l := ⟨.outer, none⟩) (System.exec_reachable (Option.some_get _).symm) rfl (by simp)
    (fun j l hj hne => absurd ((Sample.one_startup hne).symm.trans hj) (by simp)) (by decide +kernel) (by decide +kernel)
    (show Sample.ready.queue = some ⟨0, Graphs.Sample.task₁⟩ :: [] from rfl)

end DagScheduler.Scheduling

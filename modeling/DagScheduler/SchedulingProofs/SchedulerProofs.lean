import DagScheduler.Scheduling.Scheduler
import DagScheduler.SchedulingProofs.ThreadProofs

/-! What holds of the scheduler in every run: who holds the lock of the pool, which threads were
given tasks, and where every task is. -/

namespace DagScheduler.Scheduling

open Graphs Library.Transitions

variable {σ π : Type}

def LoopPc.locks : LoopPc → Bool
  | .scanning _ | .locked _ | .dispatching _ => true
  | _ => false

/-- Not in `while (true)`: no task was popped yet in this round. -/
def LoopPc.outside : LoopPc → Bool
  | .starting | .unpaused | .outer | .checkKill | .checkPause | .polling | .returned => true
  | _ => false

def LoopPc.calling : LoopPc → Option (Fin 10)
  | .dispatching k => some k
  | _ => none

namespace TaskScheduler

def Action.flag : Action σ π → Bool
  | .pause | .resume | .shutdown | .storeKill => true
  | _ => false

variable {s s' : TaskScheduler σ π} {a : Action σ π} {i : ℕ} {l : Startup σ π}

inductive Moves (s : TaskScheduler σ π) : Action σ π → TaskScheduler σ π → Prop
  | queueTask (t : Option (Task σ π)) : Moves s (.queueTask t) { s with
      queue := s.queue ++ [t.map fun t => ⟨s.queued.length, t⟩], queued := s.queued ++ [t] }
  | null (u : UUID) : Moves s (.killTask u) { s with fault := some .undefined }
  | unlink (u : UUID) : Moves s (.killTask u) { s with
      queue := s.queue.filter fun e => !e.any (Job.Named u)
      removed := s.removed ++ Job.tickets (s.queue.filter fun e => e.any (Job.Named u)) }
  | flags {a : Action σ π} (p k : Bool) (n : ℕ) (flag : a.flag = true) :
      Moves s a { s with pause := p, kill := k, shutdowns := n }
  | startup : Moves s .startup { s with startups := s.startups ++ [⟨.starting, none⟩] }
  | pass (i : ℕ) (l : Startup σ π) (pc : LoopPc) (p k : Bool) (at' : s.startups[i]? = some l)
      (locks : pc.locks = l.pc.locks) (outside : pc.outside = l.pc.outside)
      (calling : l.pc.calling = none) (calling' : pc.calling = none)
      (same : l.pc = .starting ∨ l.pc = .unpaused ∨ p = s.pause ∧ k = s.kill) :
      Moves s (.loop i) { s.put i { l with pc := pc } with pause := p, kill := k }
  | lock (i : ℕ) (l : Startup σ π) (pc : LoopPc) (at' : s.startups[i]? = some l)
      (free : s.threadPoolLock = false) (locks : pc.locks = true) (outside : pc.outside = l.pc.outside)
      (calling : l.pc.calling = none) (calling' : pc.calling = none) :
      Moves s (.loop i) { s.put i { l with pc := pc } with threadPoolLock := true }
  | unlock (i : ℕ) (l : Startup σ π) (pc : LoopPc) (at' : s.startups[i]? = some l)
      (locks : l.pc.locks = true) (locks' : pc.locks = false) (outside : pc.outside = l.pc.outside)
      (calling : l.pc.calling = none) (calling' : pc.calling = none) :
      Moves s (.loop i) { s.put i { l with pc := pc } with threadPoolLock := false }
  | popNull (i : ℕ) (l : Startup σ π) (rest : List (Option (Job σ π))) (at' : s.startups[i]? = some l)
      (pc : l.pc = .polling) (queue : s.queue = none :: rest) :
      Moves s (.loop i) { s.put i { l with pc := .outer } with queue := rest }
  | pop (i : ℕ) (l : Startup σ π) (job : Job σ π) (rest : List (Option (Job σ π)))
      (at' : s.startups[i]? = some l) (pc : l.pc = .polling) (queue : s.queue = some job :: rest) :
      Moves s (.loop i) { s.put i ⟨.inner, some job⟩ with queue := rest }
  | leave (i : ℕ) (l : Startup σ π) (at' : s.startups[i]? = some l) (locks : l.pc.locks = false)
      (kill : s.kill = true) : Moves s (.loop i) (s.leave i l)
  | dispatch (i : ℕ) (l : Startup σ π) (k : Fin 10) (job : Job σ π) (t : TaskThread σ π)
      (at' : s.startups[i]? = some l) (pc : l.pc = .locked k) (next : l.nextTask = some job)
      (set : (s.threadPool k).step (.setTaskAndRun (some job)) = some t) :
      Moves s (.loop i) { (s.put i ⟨.dispatching k, none⟩).setThread k t with
        dispatched := s.dispatched ++ [⟨i, k, job.ticket⟩] }
  | proceed (i : ℕ) (l : Startup σ π) (k : Fin 10) (t : TaskThread σ π) (at' : s.startups[i]? = some l)
      (pc : l.pc = .dispatching k) (proceed : (s.threadPool k).step .proceed = some t)
      (call : t.call ≠ .idle) : Moves s (.loop i) (s.setThread k t)
  | return (i : ℕ) (l : Startup σ π) (k : Fin 10) (t : TaskThread σ π) (at' : s.startups[i]? = some l)
      (pc : l.pc = .dispatching k) (proceed : (s.threadPool k).step .proceed = some t)
      (call : t.call = .idle) :
      Moves s (.loop i) { (s.put i { l with pc := .inner }).setThread k t with threadPoolLock := false }
  | thread {a : Action σ π} (k : Fin 10) (b : TaskThread.Action σ π) (t : TaskThread σ π)
      (internal : b.internal = true) (step : (s.threadPool k).step b = some t) : Moves s a (s.setThread k t)

lemma loop_cases (hl : s.startups[i]? = some l) (hs : s.loop i l = some s') : s.Moves (.loop i) s' := by
  obtain ⟨pc, nextTask⟩ := l
  have hpass : ∀ pc', pc'.locks = pc.locks → pc'.outside = pc.outside → pc.calling = none →
      pc'.calling = none → s.Moves (.loop i) (s.put i ⟨pc', nextTask⟩) :=
    fun pc' hlocks hout hc hc' => .pass i _ pc' s.pause s.kill hl hlocks hout hc hc' (.inr (.inr ⟨rfl, rfl⟩))
  cases pc with
  | starting =>
    obtain rfl := Option.some.inj hs
    exact .pass i _ .unpaused false s.kill hl rfl rfl rfl rfl (.inl rfl)
  | unpaused =>
    obtain rfl := Option.some.inj hs
    exact .pass i _ .outer s.pause false hl rfl rfl rfl rfl (.inr (.inl rfl))
  | outer =>
    obtain rfl := Option.some.inj hs
    apply hpass <;> cases s.kill <;> rfl
  | checkKill =>
    obtain rfl := Option.some.inj hs
    apply hpass <;> cases s.kill <;> rfl
  | checkPause =>
    obtain rfl := Option.some.inj hs
    apply hpass <;> cases s.pause <;> rfl
  | polling =>
    cases hq : s.queue with
    | nil =>
      simp only [loop, hq, Option.some.injEq] at hs
      subst hs
      exact hpass .outer rfl rfl rfl rfl
    | cons p rest =>
      cases p with
      | none =>
        simp only [loop, hq, Option.some.injEq] at hs
        exact hs ▸ .popNull i _ rest hl rfl hq
      | some job =>
        simp only [loop, hq, Option.some.injEq] at hs
        exact hs ▸ .pop i _ job rest hl rfl hq
  | inner =>
    obtain rfl := Option.some.inj hs
    cases hk : s.kill with
    | true => exact .leave i _ hl rfl hk
    | false => exact hpass .innerPause rfl rfl rfl rfl
  | innerPause =>
    obtain rfl := Option.some.inj hs
    apply hpass <;> cases s.pause <;> rfl
  | locking =>
    simp only [loop, Option.ite_none_left_eq_some, Option.some.injEq, Bool.not_eq_true] at hs
    obtain ⟨hfree, rfl⟩ := hs
    exact .lock i _ _ hl hfree rfl rfl rfl rfl
  | scanning k =>
    simp only [loop] at hs
    split at hs
    · split at hs <;> obtain rfl := Option.some.inj hs
      · exact hpass _ rfl rfl rfl rfl
      · exact .unlock i _ _ hl rfl rfl rfl rfl rfl
    · obtain rfl := Option.some.inj hs
      exact .unlock i _ _ hl rfl rfl rfl rfl rfl
  | found k =>
    obtain rfl := Option.some.inj hs
    cases hk : s.kill with
    | true => exact .leave i _ hl rfl hk
    | false => exact hpass (.acquiring k) rfl rfl rfl rfl
  | acquiring k =>
    simp only [loop, Option.ite_none_left_eq_some, Option.some.injEq, Bool.not_eq_true] at hs
    obtain ⟨hfree, rfl⟩ := hs
    exact .lock i _ _ hl hfree rfl rfl rfl rfl
  | locked k =>
    cases nextTask with
    | none =>
      obtain rfl := Option.some.inj hs
      exact .unlock i _ _ hl rfl rfl rfl rfl rfl
    | some job =>
      obtain ⟨t, ht, rfl⟩ := Option.map_eq_some_iff.mp hs
      exact .dispatch i _ k job t hl rfl rfl ht
  | dispatching k =>
    obtain ⟨t, ht, rfl⟩ := Option.map_eq_some_iff.mp hs
    split
    · exact .return i _ k t hl rfl ht ‹_›
    · exact .proceed i _ k t hl rfl ht ‹_›
  | returned => simp [loop] at hs

lemma step_cases (hs : s.step a = some s') : s.Alive ∧ s.Moves a s' := by
  unfold TaskScheduler.step at hs
  split at hs
  · simp at hs
  · rename_i halive
    refine ⟨not_not.mp halive, ?_⟩
    cases a with
    | queueTask t =>
      obtain rfl := Option.some.inj hs
      exact .queueTask t
    | killTask u =>
      obtain rfl := Option.some.inj hs
      unfold killTask
      split
      · exact .null u
      · exact .unlink u
    | pause =>
      obtain rfl := Option.some.inj hs
      exact .flags _ _ _ rfl
    | resume =>
      obtain rfl := Option.some.inj hs
      exact .flags _ _ _ rfl
    | shutdown =>
      obtain rfl := Option.some.inj hs
      exact .flags _ _ _ rfl
    | storeKill =>
      simp only [Option.ite_none_left_eq_some, Option.some.injEq] at hs
      obtain ⟨-, rfl⟩ := hs
      exact .flags _ _ _ rfl
    | startup =>
      obtain rfl := Option.some.inj hs
      exact .startup
    | loop i =>
      obtain ⟨l, hl, hs⟩ := Option.bind_eq_some_iff.mp hs
      exact loop_cases hl hs
    | wake k =>
      obtain ⟨t, ht, rfl⟩ := Option.map_eq_some_iff.mp hs
      exact .thread k _ t rfl ht
    | work k w outcome =>
      obtain ⟨t, ht, rfl⟩ := Option.map_eq_some_iff.mp hs
      exact .thread k _ t rfl ht

lemma reachable_step (h : system.Reachable s) (hs : s.step a = some s') : system.Reachable s' :=
  System.Reachable.step (M := system) h hs

/-- Only the call of `startup` that holds the lock is in a call of `set_task_and_run`. -/
structure Guarded (s : TaskScheduler σ π) : Prop where
  locked : ∀ (i : ℕ) (l : Startup σ π), s.startups[i]? = some l → l.pc.locks = true →
    s.threadPoolLock = true
  one : ∀ (i j : ℕ) (l l' : Startup σ π), s.startups[i]? = some l → s.startups[j]? = some l' →
    l.pc.locks = true → l'.pc.locks = true → i = j
  calls : ∀ (i : ℕ) (l : Startup σ π) (k : Fin 10), s.startups[i]? = some l → l.pc.calling = some k →
    (s.threadPool k).call.setting = true
  busy : ∀ k, (s.threadPool k).call ≠ .idle →
    ∃ (i : ℕ) (l : Startup σ π), s.startups[i]? = some l ∧ l.pc.calling = some k
  empty : ∀ (i : ℕ) (l : Startup σ π), s.startups[i]? = some l →
    l.pc.outside = true ∨ l.pc.calling.isSome → l.nextTask = none

lemma LoopPc.calling_locks {pc : LoopPc} {k : Fin 10} (h : pc.calling = some k) : pc.locks = true := by
  cases pc with
  | dispatching => rfl
  | _ => simp [LoopPc.calling] at h

lemma set_cases {x l' : Startup σ π} {j : ℕ} (h : (s.startups.set i x)[j]? = some l') :
    (j = i ∧ l' = x) ∨ (j ≠ i ∧ s.startups[j]? = some l') := by
  rw [List.getElem?_set] at h
  split at h
  · split at h
    · exact .inl ⟨‹i = j›.symm, (Option.some.inj h).symm⟩
    · simp at h
  · exact .inr ⟨Ne.symm ‹_›, h⟩

lemma set_of_ne {x l' : Startup σ π} {j : ℕ} (hne : j ≠ i) (h : s.startups[j]? = some l') :
    (s.startups.set i x)[j]? = some l' := by
  rw [List.getElem?_set_ne hne.symm, h]

lemma set_self {x : Startup σ π} (h : s.startups[i]? = some l) : (s.startups.set i x)[i]? = some x := by
  rw [List.getElem?_set_self (List.getElem?_eq_some_iff.mp h).1]

lemma Guarded.update {x : Startup σ π} (h : s.Guarded) (hl : s.startups[i]? = some l)
    (hset : s'.startups = s.startups.set i x)
    (htake : x.pc.locks = true → l.pc.locks = true ∨ s.threadPoolLock = false)
    (hlock : x.pc.locks = true → s'.threadPoolLock = true)
    (hfree : s'.threadPoolLock = false → s.threadPoolLock = false ∨ l.pc.locks = true)
    (hcalls : ∀ k, x.pc.calling = some k ∨
      (s.threadPool k).call.setting = true ∧ l.pc.calling ≠ some k → (s'.threadPool k).call.setting = true)
    (hbusy : ∀ k, (s'.threadPool k).call ≠ .idle →
      x.pc.calling = some k ∨ (s.threadPool k).call ≠ .idle ∧ l.pc.calling ≠ some k)
    (hempty : x.pc.outside = true ∨ x.pc.calling.isSome → x.nextTask = none) : s'.Guarded where
  locked j l' hj hlocks := by
    rw [hset] at hj
    rcases set_cases hj with ⟨rfl, rfl⟩ | ⟨hne, hj⟩
    · exact hlock hlocks
    · by_contra hc
      rcases hfree (by simpa using hc) with hf | hf
      · simp [h.locked j l' hj hlocks] at hf
      · exact hne (h.one j i l' l hj hl hlocks hf)
  one j j' l₁ l₂ hj hj' hlocks hlocks' := by
    rw [hset] at hj hj'
    have hclash : ∀ (j : ℕ) (l' : Startup σ π), j ≠ i → s.startups[j]? = some l' → l'.pc.locks = true → x.pc.locks = true → False := by
      intro j l' hne hj hlocks hx
      rcases htake hx with hf | hf
      · exact hne (h.one j i l' l hj hl hlocks hf)
      · simp [h.locked j l' hj hlocks] at hf
    rcases set_cases hj with ⟨hi, hx⟩ | ⟨hne, hold⟩ <;> rcases set_cases hj' with ⟨hi', hx'⟩ | ⟨hne', hold'⟩
    · exact hi.trans hi'.symm
    · exact (hclash j' l₂ hne' hold' hlocks' (hx ▸ hlocks)).elim
    · exact (hclash j l₁ hne hold hlocks (hx' ▸ hlocks')).elim
    · exact h.one j j' l₁ l₂ hold hold' hlocks hlocks'
  calls j l' k hj hcall := by
    rw [hset] at hj
    rcases set_cases hj with ⟨rfl, rfl⟩ | ⟨hne, hj⟩
    · exact hcalls k (.inl hcall)
    · refine hcalls k (.inr ⟨h.calls j l' k hj hcall, fun hc => hne ?_⟩)
      exact h.one j i l' l hj hl (LoopPc.calling_locks hcall) (LoopPc.calling_locks hc)
  busy k hk := by
    rcases hbusy k hk with hx | ⟨hold, hne⟩
    · exact ⟨i, x, hset ▸ set_self hl, hx⟩
    · obtain ⟨j, l', hj, hcall⟩ := h.busy k hold
      have hji : j ≠ i := by
        rintro rfl
        obtain rfl := Option.some.inj (hl.symm.trans hj)
        exact hne hcall
      exact ⟨j, l', hset ▸ set_of_ne hji hj, hcall⟩
  empty j l' hj hout := by
    rw [hset] at hj
    rcases set_cases hj with ⟨rfl, rfl⟩ | ⟨-, hj⟩
    · exact hempty hout
    · exact h.empty j l' hj hout

lemma Guarded.turn {x : Startup σ π} (h : s.Guarded) (hl : s.startups[i]? = some l)
    (hset : s'.startups = s.startups.set i x) (hpool : s'.threadPool = s.threadPool)
    (hcalling : l.pc.calling = none) (hcalling' : x.pc.calling = none)
    (htake : x.pc.locks = true → l.pc.locks = true ∨ s.threadPoolLock = false)
    (hlock : x.pc.locks = true → s'.threadPoolLock = true)
    (hfree : s'.threadPoolLock = false → s.threadPoolLock = false ∨ l.pc.locks = true)
    (hempty : x.pc.outside = true → x.nextTask = none) : s'.Guarded := by
  apply h.update hl hset htake hlock hfree
  · rintro k (hk | hk)
    · simp [hcalling'] at hk
    · exact hpool ▸ hk.1
  · intro k hk
    exact .inr ⟨hpool ▸ hk, by simp [hcalling]⟩
  · rintro (hx | hx)
    · exact hempty hx
    · simp [hcalling'] at hx

@[simp] lemma setThread_self {k : Fin 10} {t : TaskThread σ π} : (s.setThread k t).threadPool k = t := by
  simp [setThread]

@[simp] lemma setThread_of_ne {k j : Fin 10} {t : TaskThread σ π} (h : j ≠ k) :
    (s.setThread k t).threadPool j = s.threadPool j := by
  simp [setThread, h]

lemma Guarded.moves (h : s.Guarded) (hm : s.Moves a s') : s'.Guarded := by
  cases hm with
  | queueTask t => exact ⟨h.locked, h.one, h.calls, h.busy, h.empty⟩
  | null u => exact ⟨h.locked, h.one, h.calls, h.busy, h.empty⟩
  | unlink u => exact ⟨h.locked, h.one, h.calls, h.busy, h.empty⟩
  | flags p k n => exact ⟨h.locked, h.one, h.calls, h.busy, h.empty⟩
  | startup =>
    constructor
    · intro j l' hj hlocks
      rcases append_cases hj with hj | ⟨-, rfl⟩
      · exact h.locked j l' hj hlocks
      · simp [LoopPc.locks] at hlocks
    · intro j j' l₁ l₂ hj hj' hlocks hlocks'
      rcases append_cases hj with hj | ⟨-, rfl⟩
      · rcases append_cases hj' with hj' | ⟨-, rfl⟩
        · exact h.one j j' l₁ l₂ hj hj' hlocks hlocks'
        · simp [LoopPc.locks] at hlocks'
      · simp [LoopPc.locks] at hlocks
    · intro j l' k hj hcall
      rcases append_cases hj with hj | ⟨-, rfl⟩
      · exact h.calls j l' k hj hcall
      · simp [LoopPc.calling] at hcall
    · intro k hk
      obtain ⟨j, l', hj, hcall⟩ := h.busy k hk
      exact ⟨j, l', (List.getElem?_append_left (List.getElem?_eq_some_iff.mp hj).1).trans hj, hcall⟩
    · intro j l' hj hout
      rcases append_cases hj with hj | ⟨-, rfl⟩
      · exact h.empty j l' hj hout
      · rfl
  | pass i l pc p k hl locks outside calling calling' =>
    refine h.turn hl rfl rfl calling calling' ?_ ?_ .inl ?_
    · exact fun hx => .inl (locks ▸ hx)
    · exact fun hx => h.locked i l hl (locks ▸ hx)
    · exact fun hx => h.empty i l hl (.inl (outside ▸ hx))
  | lock i l pc hl free locks outside calling calling' =>
    refine h.turn hl rfl rfl calling calling' (fun _ => .inr free) (fun _ => rfl) (by simp) ?_
    exact fun hx => h.empty i l hl (.inl (outside ▸ hx))
  | unlock i l pc hl locks locks' outside calling calling' =>
    refine h.turn hl rfl rfl calling calling' (by simp [locks']) (by simp [locks']) (fun _ => .inr locks) ?_
    exact fun hx => h.empty i l hl (.inl (outside ▸ hx))
  | popNull i l rest hl pc queue =>
    refine h.turn hl rfl rfl (by rw [pc]; rfl) rfl (by simp [LoopPc.locks]) (by simp [LoopPc.locks]) .inl ?_
    exact fun _ => h.empty i l hl (.inl (by rw [pc]; rfl))
  | pop i l job rest hl pc queue =>
    refine h.turn hl rfl rfl (by rw [pc]; rfl) rfl (by simp [LoopPc.locks]) (by simp [LoopPc.locks]) .inl ?_
    simp [LoopPc.outside]
  | leave i l hl locks kill =>
    refine h.turn hl rfl rfl ?_ rfl (by simp [LoopPc.locks]) (by simp [LoopPc.locks]) .inl fun _ => rfl
    by_contra hc
    obtain ⟨k, hk⟩ := Option.ne_none_iff_exists'.mp hc
    simp [LoopPc.calling_locks hk] at locks
  | dispatch i l k job t hl pc next set =>
    obtain ⟨-, -, -, hcall, -⟩ := TaskThread.setTaskAndRun_holds 0 set
    refine h.update hl rfl ?_ ?_ ?_ ?_ ?_ ?_
    · exact fun _ => .inl (by rw [pc]; rfl)
    · exact fun _ => h.locked i l hl (by rw [pc]; rfl)
    · exact .inl
    · intro j hj
      by_cases hjk : j = k
      · subst hjk
        simp [setThread, hcall, CallPc.setting]
      · rcases hj with hj | hj
        · exact absurd (Option.some.inj hj).symm hjk
        · simpa [setThread, hjk, put] using hj.1
    · intro j hj
      by_cases hjk : j = k
      · exact .inl (by rw [hjk]; rfl)
      · exact .inr ⟨by simpa [setThread, hjk, put] using hj, by simp [pc, LoopPc.calling]⟩
    · exact fun _ => rfl
  | proceed i l k t hl pc proceed call =>
    have hsetting := h.calls i l k hl (by rw [pc]; rfl)
    obtain ⟨-, hcall⟩ := TaskThread.proceed_setting hsetting (TaskThread.step_proceed proceed)
    refine h.update hl (x := l) ?_ ?_ ?_ ?_ ?_ ?_ ?_
    · obtain ⟨hi, rfl⟩ := List.getElem?_eq_some_iff.mp hl
      simp [setThread]
    · exact .inl
    · exact h.locked i l hl
    · exact .inl
    · intro j hj
      by_cases hjk : j = k
      · subst hjk
        simpa using hcall.resolve_left call
      · rw [setThread_of_ne hjk]
        rcases hj with hj | hj
        · exact h.calls i l j hl hj
        · exact hj.1
    · intro j hj
      by_cases hjk : j = k
      · exact .inl (by rw [pc, hjk]; rfl)
      · rw [setThread_of_ne hjk] at hj
        exact .inr ⟨hj, by simp [pc, LoopPc.calling, Ne.symm hjk]⟩
    · exact h.empty i l hl
  | «return» i l k t hl pc proceed call =>
    refine h.update hl rfl ?_ ?_ ?_ ?_ ?_ ?_
    · simp [LoopPc.locks]
    · simp [LoopPc.locks]
    · exact fun _ => .inr (by rw [pc]; rfl)
    · rintro j (hj | hj)
      · simp [LoopPc.calling] at hj
      · have hjk : j ≠ k := by
          rintro rfl
          simp [pc, LoopPc.calling] at hj
        simpa [setThread, hjk, put] using hj.1
    · intro j hj
      by_cases hjk : j = k
      · subst hjk
        simp [setThread, call] at hj
      · exact .inr ⟨by simpa [setThread, hjk, put] using hj, by simp [pc, LoopPc.calling, Ne.symm hjk]⟩
    · simp [LoopPc.outside, LoopPc.calling]
  | thread k b t internal step =>
    have hcall := (TaskThread.step_inside internal step).call
    have hidle : t.call = .idle ↔ (s.threadPool k).call = .idle := by
      rcases hcall with hcall | ⟨w, hw, hw'⟩
      · rw [hcall]
      · simp [hw, hw']
    have hset : (s.threadPool k).call.setting = true → t.call.setting = true := by
      rcases hcall with hcall | ⟨w, hw, hw'⟩
      · rw [hcall]
        exact id
      · simp [hw', CallPc.setting]
    refine ⟨h.locked, h.one, ?_, ?_, h.empty⟩
    · intro j l' k' hj hc
      by_cases hk : k' = k
      · subst hk
        simpa using hset (h.calls j l' k' hj hc)
      · rw [setThread_of_ne hk]
        exact h.calls j l' k' hj hc
    · intro k' hk'
      by_cases hk : k' = k
      · subst hk
        rw [setThread_self, Ne, hidle] at hk'
        exact h.busy k' hk'
      · rw [setThread_of_ne hk] at hk'
        exact h.busy k' hk'

lemma guarded (h : (system (σ := σ) (π := π)).Reachable s) : s.Guarded := by
  refine h.invariant ?_ fun _ _ _ hg hs => hg.moves (step_cases hs).2
  constructor <;> simp [system, init, TaskThread.init]

def Gave (s : TaskScheduler σ π) (k : Fin 10) (ticket : ℕ) : Prop :=
  ∃ d ∈ s.dispatched, d.thread = k ∧ d.ticket = ticket

structure Given (s : TaskScheduler σ π) : Prop where
  reachable : ∀ k, TaskThread.system.Reachable (s.threadPool k)
  uses : ∀ k, (s.threadPool k).uses = (s.dispatched.map Dispatch.thread).count k
  holds : ∀ k ticket, (s.threadPool k).holds ticket ≠ 0 → s.Gave k ticket
  stagesRun : ∀ k ticket n, (ticket, n) ∈ (s.threadPool k).stagesRun → s.Gave k ticket

lemma Given.keep {k : Fin 10} {t : TaskThread σ π} (h : s.Given) (ht : TaskThread.system.Reachable t)
    (hkept : (s.threadPool k).Kept t) (hpool : s'.threadPool = Function.update s.threadPool k t)
    (hdispatched : s'.dispatched = s.dispatched) : s'.Given := by
  have hcases : ∀ P : Fin 10 → TaskThread σ π → Prop, P k t → (∀ j, P j (s.threadPool j)) →
      ∀ j, P j (s'.threadPool j) := by
    intro P hk hj j
    rw [hpool]
    by_cases hjk : j = k
    · subst hjk
      rwa [Function.update_self]
    · rw [Function.update_of_ne hjk]
      exact hj j
  constructor
  · exact hcases (fun _ t => TaskThread.system.Reachable t) ht h.reachable
  · rw [hdispatched]
    exact hcases (fun j t => t.uses = _) (hkept.uses.trans (h.uses k)) h.uses
  · rw [show s'.Gave = s.Gave by unfold Gave; rw [hdispatched]]
    apply hcases (fun j t => ∀ ticket, t.holds ticket ≠ 0 → s.Gave j ticket)
    · exact fun ticket hne => h.holds k ticket (hkept.holds ticket ▸ hne)
    · exact h.holds
  · rw [show s'.Gave = s.Gave by unfold Gave; rw [hdispatched]]
    apply hcases (fun j t => ∀ ticket n, (ticket, n) ∈ t.stagesRun → s.Gave j ticket)
    · intro ticket n hmem
      rcases hkept.stagesRun ticket n hmem with hold | htask
      · exact h.stagesRun k ticket n hold
      · exact h.holds k ticket (TaskThread.holds_of_task htask)
    · exact h.stagesRun

lemma Given.moves (h : s.Given) (hg : s.Guarded) (hm : s.Moves a s') : s'.Given := by
  cases hm with
  | dispatch i l k job t hl pc next set =>
    have hset := fun ticket => TaskThread.setTaskAndRun_holds ticket set
    have hmem : ∀ d ∈ s.dispatched, d ∈ s.dispatched ++ [⟨i, k, job.ticket⟩] :=
      fun d hd => List.mem_append_left _ hd
    constructor
    · intro j
      by_cases hjk : j = k
      · subst hjk
        simpa [setThread] using TaskThread.reachable_step (h.reachable j) set
      · simpa [setThread, hjk, put] using h.reachable j
    · intro j
      have huses := h.uses j
      by_cases hjk : j = k
      · subst hjk
        simp [setThread, (hset 0).2.2.1, huses]
      · simpa [setThread, hjk, put, List.count_singleton, Ne.symm hjk] using huses
    · intro j ticket hne
      by_cases hjk : j = k
      · subst hjk
        by_cases hticket : job.ticket = ticket
        · exact ⟨⟨i, j, job.ticket⟩, by simp, rfl, hticket⟩
        · have hsum := (hset ticket).1
          simp only [setThread, Function.update_self] at hne
          have hold : (s.threadPool j).holds ticket ≠ 0 := by
            simp only [Job.amount_some, hticket, if_false] at hsum
            omega
          obtain ⟨d, hd, hd'⟩ := h.holds j ticket hold
          exact ⟨d, hmem d hd, hd'⟩
      · obtain ⟨d, hd, hd'⟩ := h.holds j ticket (by simpa [setThread, hjk, put] using hne)
        exact ⟨d, hmem d hd, hd'⟩
    · intro j ticket n hn
      have hold : (ticket, n) ∈ (s.threadPool j).stagesRun := by
        by_cases hjk : j = k
        · subst hjk
          simpa [setThread, (hset 0).2.1] using hn
        · simpa [setThread, hjk, put] using hn
      obtain ⟨d, hd, hd'⟩ := h.stagesRun j ticket n hold
      exact ⟨d, hmem d hd, hd'⟩
  | proceed i l k t hl pc proceed call =>
    have hsetting := hg.calls i l k hl (by rw [pc]; rfl)
    exact h.keep (TaskThread.reachable_step (h.reachable k) proceed)
      (TaskThread.proceed_kept hsetting (TaskThread.step_proceed proceed)) rfl rfl
  | «return» i l k t hl pc proceed call =>
    have hsetting := hg.calls i l k hl (by rw [pc]; rfl)
    exact h.keep (TaskThread.reachable_step (h.reachable k) proceed)
      (TaskThread.proceed_kept hsetting (TaskThread.step_proceed proceed)) rfl rfl
  | thread k b t internal step =>
    exact h.keep (TaskThread.reachable_step (h.reachable k) step) (TaskThread.step_inside internal step).toKept rfl rfl
  | _ => exact ⟨h.reachable, h.uses, h.holds, h.stagesRun⟩

lemma given (h : (system (σ := σ) (π := π)).Reachable s) : s.Given := by
  refine h.induct ?_ fun _ _ _ hr hg hs => hg.moves (guarded hr) (step_cases hs).2
  constructor
  · exact fun _ => .start
  · exact fun _ => rfl
  · simp [system, init, TaskThread.init, TaskThread.holds]
  · simp [system, init, TaskThread.init]

lemma unreached_setThread {k : Fin 10} {t : TaskThread σ π} {a : TaskThread.Action σ π}
    (h : ∀ j, (s.threadPool j).reached = none) (ha : ∀ b, a ≠ .setInterrupt b) (hs : (s.threadPool k).step a = some t)
    (j : Fin 10) : ((s.setThread k t).threadPool j).reached = none := by
  by_cases hj : j = k
  · subst hj
    rw [setThread_self]
    exact TaskThread.step_reached ha (h j) hs
  · rw [setThread_of_ne hj]
    exact h j

/-- Nobody interrupts the threads of the pool. -/
lemma undisturbed (h : (system (σ := σ) (π := π)).Reachable s) (k : Fin 10) : (s.threadPool k).Undisturbed := by
  have hreached : ∀ j, (s.threadPool j).reached = none := by
    refine h.invariant (I := fun s => ∀ j, (s.threadPool j).reached = none) (fun _ => rfl) fun s a s' hI hs => ?_
    cases (step_cases hs).2 with
    | dispatch i l k job t at' pc next set => exact unreached_setThread hI (by simp) set
    | proceed i l k t at' pc proceed => exact unreached_setThread hI (by simp) proceed
    | «return» i l k t at' pc proceed => exact unreached_setThread hI (by simp) proceed
    | thread k b t internal step =>
      refine unreached_setThread hI (fun b' hb => ?_) step
      simp [hb, TaskThread.Action.internal] at internal
    | _ => exact hI
  refine ⟨hreached k, fun hcall => ?_⟩
  obtain ⟨i, l, hl, hcalling⟩ := (guarded h).busy k (by simp [hcall])
  have hsetting := (guarded h).calls i l k hl hcalling
  simp [hcall, CallPc.setting] at hsetting

end TaskScheduler

end DagScheduler.Scheduling

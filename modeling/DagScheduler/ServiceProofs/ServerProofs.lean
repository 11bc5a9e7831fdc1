import DagScheduler.ServiceProofs.EndpointProofs

/-! One operation at a time: what the service exchanges with its clients in a whole run, and what makes
it fall silent. -/

namespace DagScheduler.Service

open Library.Transitions Library.Paths

variable {router : Router} {fs : FileSystem} {req : Request}

def Router.Mute (router : Router) (target : String) : Prop := router.find target = .ok (some .registerDAGEndpoint)

inductive Responds (router : Router) (req : Request) : List Response × List String → Prop
  | mute (h : router.Mute req.target) : Responds router req ([], [])
  | once {r : Response} {opened : List String} (h : ¬ router.Mute req.target)
      (hlast : r.needEof = false → Lasting req r)
      (hopened : ∀ path ∈ opened, ∃ docRoot, router.find req.target = .ok (some (.docRootEndpoint docRoot)) ∧
        DocRootEndpoint.Admits req ∧ path = Detail.pathCat docRoot req.target) :
      Responds router req ([r], opened)

lemma respond_responds (router : Router) (fs : FileSystem) (req : Request) :
    Responds router req (respond router fs req) := by
  have hmissing (h : ¬ router.Mute req.target) : Responds router req ([Detail.notFoundHandler req.target req], []) :=
    .once h (fun hopen => ⟨persistent_of_open hopen rfl, .inr (.inl rfl)⟩) (by simp)
  cases hfind : router.find req.target with
  | error =>
    simp only [respond, hfind]
    exact hmissing (by simp [Router.Mute, hfind])
  | ok found =>
    cases found with
    | none =>
      simp only [respond, hfind]
      exact hmissing (by simp [Router.Mute, hfind])
    | some handler =>
      simp only [respond, hfind]
      cases handler with
      | endpointHandler =>
        refine .once (by simp [Router.Mute, hfind]) (fun hopen => ?_) (by simp [EndpointHandler.call])
        exact absurd hopen (by simp [serverErrorHandler_needEof])
      | docRootEndpoint docRoot =>
        have hans := DocRootEndpoint.handleRequest_answers docRoot fs req
        obtain ⟨hstatus, r, hsent, hlast⟩ := hans.responds
        simp only [EndpointHandler.call, hstatus, hsent, if_true, List.append_nil]
        exact .once (by simp [Router.Mute, hfind]) hlast fun path hp => ⟨docRoot, hfind, hans.opens hp⟩
      | registerDAGEndpoint => exact .mute hfind

namespace Server

variable {s t : Server} {a : ℕ × Completion} {op : Operation} {c : Completion} {n i : ℕ} {xs : List Exchange}

def Completion.Drops (router : Router) : Completion → Prop
  | .onAccept ec keepAlive => ec ≠ .success ∨ keepAlive ≠ .success
  | .onRead ec req _ => ec = .other ∨ ec = .success ∧ router.Mute req.target
  | .onWrite ec => ec ≠ .success
  | _ => False

inductive Goes (router : Router) (n : ℕ) (xs : List Exchange) : Operation → Completion → Server → Prop
  | accepted : Goes router n xs (.accept false) (.onAccept .success .success) ⟨[.dispatch n], n + 1, xs⟩
  | dispatched (i : ℕ) : Goes router n xs (.dispatch i) .onRun ⟨[.handshake i], n, xs⟩
  | greeted (i : ℕ) : Goes router n xs (.handshake i) (.onHandshake .success) ⟨[.read i], n, xs⟩
  | ungreeted (i : ℕ) {ec : ErrorCode} (hec : ec ≠ .success) :
      Goes router n xs (.handshake i) (.onHandshake ec) ⟨[.shutdown i], n, xs⟩
  | ended (i : ℕ) (req : Request) (fs : FileSystem) :
      Goes router n xs (.read i) (.onRead .endOfStream req fs) ⟨[.shutdown i], n, xs⟩
  | answered (i : ℕ) (req : Request) (fs : FileSystem) {r : Response} {opened : List String}
      (hr : respond router fs req = ([r], opened)) (hmute : ¬ router.Mute req.target) :
      Goes router n xs (.read i) (.onRead .success req fs) ⟨[.write i r], n, xs ++ [⟨i, req, [r], opened⟩]⟩
  | unanswered (i : ℕ) (req : Request) (fs : FileSystem) (hr : respond router fs req = ([], []))
      (hmute : router.Mute req.target) :
      Goes router n xs (.read i) (.onRead .success req fs) ⟨[], n, xs ++ [⟨i, req, [], []⟩]⟩
  | closing (i : ℕ) {r : Response} (heof : r.needEof = true) :
      Goes router n xs (.write i r) (.onWrite .success) ⟨[.shutdown i], n, xs⟩
  | lasting (i : ℕ) {r : Response} (heof : r.needEof = false) :
      Goes router n xs (.write i r) (.onWrite .success) ⟨[.read i], n, xs⟩
  | shut (i : ℕ) (ec : ErrorCode) : Goes router n xs (.shutdown i) (.onShutdown ec) ⟨[.accept false], n, xs⟩
  | dropped {op : Operation} {c : Completion} (hc : c.Drops router) (hread : ∀ req fs, c ≠ .onRead .success req fs) :
      Goes router n xs op c ⟨[], n, xs⟩

lemma complete_goes (hs : complete router ⟨[], n, xs⟩ op c = some t) : Goes router n xs op c t := by
  cases op with
  | accept closed =>
    cases c with
    | onAccept ec keepAlive =>
      simp only [complete, Option.ite_none_left_eq_some, Option.some.injEq] at hs
      obtain ⟨hopen, rfl⟩ := hs
      by_cases hdrop : ec ≠ .success ∨ keepAlive ≠ .success
      · have hsame : onAccept ⟨[], n, xs⟩ ec keepAlive = ⟨[], n, xs⟩ := by
          unfold onAccept
          rcases hdrop with h | h <;> simp [h]
        rw [hsame]
        exact .dropped hdrop fun _ _ h => nomatch h
      · push Not at hdrop
        obtain ⟨rfl, rfl⟩ := hdrop
        cases closed with
        | true => exact absurd rfl hopen
        | false => exact .accepted
    | _ => simp [complete] at hs
  | dispatch i =>
    cases c with
    | onRun =>
      obtain rfl := Option.some.inj hs
      exact .dispatched i
    | _ => simp [complete] at hs
  | handshake i =>
    cases c with
    | onHandshake ec =>
      obtain rfl := Option.some.inj hs
      cases ec with
      | success => exact .greeted i
      | endOfStream => exact .ungreeted i (by decide)
      | other => exact .ungreeted i (by decide)
    | _ => simp [complete] at hs
  | read i =>
    cases c with
    | onRead ec req fs =>
      obtain rfl := Option.some.inj hs
      cases ec with
      | endOfStream => exact .ended i req fs
      | other => exact .dropped (.inl rfl) fun _ _ h => nomatch h
      | success =>
        have hresponds := respond_responds router fs req
        generalize hr : respond router fs req = out at hresponds
        simp only [onRead, hr]
        cases hresponds with
        | mute hmute => exact .unanswered i req fs hr hmute
        | once hmute => exact .answered i req fs hr hmute
    | _ => simp [complete] at hs
  | write i r =>
    cases c with
    | onWrite ec =>
      obtain rfl := Option.some.inj hs
      cases ec with
      | success =>
        cases heof : r.needEof with
        | true => exact .closing i heof
        | false => exact .lasting i heof
      | endOfStream => exact .dropped (by simp [Completion.Drops]) fun _ _ h => nomatch h
      | other => exact .dropped (by simp [Completion.Drops]) fun _ _ h => nomatch h
    | _ => simp [complete] at hs
  | shutdown i =>
    cases c with
    | onShutdown ec =>
      obtain rfl := Option.some.inj hs
      exact .shut i ec
    | _ => simp [complete] at hs

lemma step_single (hsingle : s.pending.length ≤ 1) (hs : step router s a = some t) :
    ∃ op, s.pending = [op] ∧ Goes router s.sessions s.exchanges op a.2 t := by
  obtain ⟨op, hop, hc⟩ := Option.bind_eq_some_iff.mp hs
  obtain ⟨hlt, hget⟩ := List.getElem?_eq_some_iff.mp hop
  obtain ⟨only, honly⟩ := List.length_eq_one_iff.mp (by omega : s.pending.length = 1)
  obtain hfirst : a.1 = 0 := by omega
  have hself : only = op := by simpa [honly, hfirst] using hop
  refine ⟨op, by rw [honly, hself], complete_goes ?_⟩
  simpa [hfirst, honly] using hc

/-! What a run keeps. -/

/-- A session reads again only after it sent one response, and that one left it open. -/
def Exchange.Before (e : Exchange) (session : ℕ) : Prop :=
  e.session < session ∨ e.session = session ∧ ∃ r, e.responses = [r] ∧ r.needEof = false

def Fits (n : ℕ) (xs : List Exchange) : Operation → Prop
  | .accept closed => closed = false
  | .dispatch i | .handshake i => i + 1 = n ∧ ∀ e ∈ xs, e.session < i
  | .read i => i + 1 = n ∧ ∀ e ∈ xs, e.Before i
  | .write i r => i + 1 = n ∧ ∃ earlier e, xs = earlier ++ [e] ∧ e.session = i ∧ e.responses = [r]
  | .shutdown i => i + 1 = n

structure Orderly (router : Router) (s : Server) : Prop where
  pending : s.pending = [] ∨ ∃ op, s.pending = [op] ∧ Fits s.sessions s.exchanges op
  known : ∀ e ∈ s.exchanges, e.session < s.sessions
  ordered : s.exchanges.Pairwise fun e e' => e.Before e'.session
  answered : ∀ e ∈ s.exchanges, Responds router e.request (e.responses, e.opened)

lemma Orderly.single (h : Orderly router s) : s.pending.length ≤ 1 := by
  rcases h.pending with hnone | ⟨op, hop, -⟩
  · simp [hnone]
  · simp [hop]

lemma Orderly.keep {ops : List Operation} {m : ℕ} (h : Orderly router s) (hm : s.sessions ≤ m)
    (hops : ops = [] ∨ ∃ op, ops = [op] ∧ Fits m s.exchanges op) : Orderly router ⟨ops, m, s.exchanges⟩ :=
  ⟨hops, fun e he => (h.known e he).trans_le hm, h.ordered, h.answered⟩

lemma Orderly.exchange {ops : List Operation} {e : Exchange} (h : Orderly router s) (hi : e.session + 1 = s.sessions)
    (hread : ∀ e' ∈ s.exchanges, e'.Before e.session) (he : Responds router e.request (e.responses, e.opened))
    (hops : ops = [] ∨ ∃ op, ops = [op] ∧ Fits s.sessions (s.exchanges ++ [e]) op) :
    Orderly router ⟨ops, s.sessions, s.exchanges ++ [e]⟩ := by
  refine ⟨hops, ?_, ?_, ?_⟩
  · rw [List.forall_mem_append, List.forall_mem_singleton]
    exact ⟨h.known, Nat.lt_of_succ_le hi.le⟩
  · rw [List.pairwise_append]
    refine ⟨h.ordered, List.pairwise_singleton _ _, fun e' he' e'' he'' => ?_⟩
    rw [List.mem_singleton.mp he'']
    exact hread e' he'
  · rw [List.forall_mem_append, List.forall_mem_singleton]
    exact ⟨h.answered, he⟩

lemma Orderly.goes (h : Orderly router s) (hop : s.pending = [op])
    (hgo : Goes router s.sessions s.exchanges op c t) : Orderly router t := by
  have hfits : Fits s.sessions s.exchanges op := by
    rcases h.pending with hnone | ⟨op', hop', hfits⟩
    · simp [hop] at hnone
    · obtain rfl : op = op' := by simpa [hop] using hop'
      exact hfits
  cases hgo with
  | accepted => exact h.keep (Nat.le_succ _) (.inr ⟨_, rfl, rfl, h.known⟩)
  | dispatched i => exact h.keep (le_refl _) (.inr ⟨_, rfl, hfits⟩)
  | greeted i => exact h.keep (le_refl _) (.inr ⟨_, rfl, hfits.1, fun e he => .inl (hfits.2 e he)⟩)
  | ungreeted i => exact h.keep (le_refl _) (.inr ⟨_, rfl, hfits.1⟩)
  | ended i req fs => exact h.keep (le_refl _) (.inr ⟨_, rfl, hfits.1⟩)
  | answered i req fs hr =>
    refine h.exchange hfits.1 hfits.2 ?_ (.inr ⟨_, rfl, hfits.1, s.exchanges, _, rfl, rfl, rfl⟩)
    rw [← hr]
    exact respond_responds router fs req
  | unanswered i req fs hr => exact h.exchange hfits.1 hfits.2 (hr ▸ respond_responds router fs req) (.inl rfl)
  | closing i => exact h.keep (le_refl _) (.inr ⟨_, rfl, hfits.1⟩)
  | lasting i heof =>
    refine h.keep (le_refl _) (.inr ⟨_, rfl, hfits.1, ?_⟩)
    obtain ⟨-, earlier, last, hxs, rfl, hres⟩ := hfits
    have hordered := h.ordered
    rw [hxs, List.pairwise_append] at hordered
    rw [hxs, List.forall_mem_append, List.forall_mem_singleton]
    exact ⟨fun e he => hordered.2.2 e he last (by simp), .inr ⟨rfl, _, hres, heof⟩⟩
  | shut => exact h.keep (le_refl _) (.inr ⟨_, rfl, rfl⟩)
  | dropped => exact h.keep (le_refl _) (.inl rfl)

lemma orderly (hr : (system router).Reachable s) : Orderly router s := by
  apply hr.invariant
  · exact ⟨.inr ⟨_, rfl, rfl⟩, by simp [system, doAccept, async], by simp [system, doAccept, async],
    by simp [system, doAccept, async]⟩
  · intro s a t h hs
    obtain ⟨op, hop, hgo⟩ := step_single h.single hs
    exact h.goes hop hgo

/-- One operation is pending at most. Each request is answered once, or never where its endpoint is mute;
after a response that ends the connection, or that sends a file, its session reads no other request. -/
theorem serves_in_order (hr : (system router).Reachable s) :
    s.pending.length ≤ 1 ∧
      (∀ e ∈ s.exchanges, e.session < s.sessions ∧
        (router.Mute e.request.target ∧ e.responses = [] ∨ ¬ router.Mute e.request.target ∧ ∃ r, e.responses = [r])) ∧
      s.exchanges.Pairwise fun e e' => e.session < e'.session ∨
        e.session = e'.session ∧ ∃ r, e.responses = [r] ∧ r.needEof = false ∧ Lasting e.request r := by
  have horder := orderly hr
  refine ⟨horder.single, fun e he => ⟨horder.known e he, ?_⟩, ?_⟩
  · have hans := horder.answered e he
    generalize e.responses = responses, e.opened = opened at hans ⊢
    cases hans with
    | mute hmute => exact .inl ⟨hmute, rfl⟩
    | once hmute => exact .inr ⟨hmute, _, rfl⟩
  · apply horder.ordered.imp_of_mem
    intro e e' he _ hbefore
    refine hbefore.imp id ?_
    rintro ⟨hsame, r, hr, hopen⟩
    refine ⟨hsame, r, hr, hopen, ?_⟩
    have hans := horder.answered e he
    rw [hr] at hans
    generalize e.opened = opened at hans
    cases hans with
    | once _ hlast => exact hlast hopen

def sampleRun : List (ℕ × Completion) :=
  [(0, .onAccept .success .success), (0, .onRun), (0, .onHandshake .success),
    (0, .onRead .success ⟨.get, "/none", 11, true⟩ ⟨fun _ => .error .noSuchFileOrDirectory⟩), (0, .onWrite .success),
    (0, .onRead .success ⟨.get, "/index.html", 11, true⟩ ⟨fun _ => .ok ⟨2, some ['o', 'k']⟩⟩), (0, .onWrite .success)]

theorem serves_in_order_sample :
    ∃ s, (system (workflowRouter "/srv/www")).Reachable s ∧ s.exchanges.map Exchange.session = [0, 0] ∧
      s.exchanges.Pairwise fun e e' => e.session < e'.session ∨
        e.session = e'.session ∧ ∃ r, e.responses = [r] ∧ r.needEof = false ∧ Lasting e.request r := by
  have hexec : ((system (workflowRouter "/srv/www")).exec (system (workflowRouter "/srv/www")).start sampleRun).any
      (fun s => s.exchanges.map Exchange.session = [0, 0]) = true := by decide +kernel
  obtain ⟨s, hs, hsessions⟩ := System.exec_any hexec
  have hr := System.exec_reachable hs
  exact ⟨s, hr, of_decide_eq_true hsessions, (serves_in_order hr).2.2⟩

/-- Whatever is asked for in a run, the files that are opened belong to the document root of the endpoint,
and lie below it unless it is empty. -/
theorem opens_below (hr : (system router).Reachable s) :
    ∀ e ∈ s.exchanges, ∀ path ∈ e.opened, ∃ docRoot,
      router.find e.request.target = .ok (some (.docRootEndpoint docRoot)) ∧ DocRootEndpoint.Admits e.request ∧
        path = Detail.pathCat docRoot e.request.target ∧
        (docRoot ≠ "" → ∀ cwd, locate cwd docRoot.toList <+: locate cwd path.toList) := by
  intro e he path hp
  have hans := (orderly hr).answered e he
  generalize e.responses = responses, e.opened = opened at hans hp
  cases hans with
  | mute => exact absurd hp List.not_mem_nil
  | once _ _ hopened =>
    obtain ⟨docRoot, hfind, hreq, rfl⟩ := hopened path hp
    exact ⟨docRoot, hfind, hreq, rfl, fun hroot => DocRootEndpoint.pathCat_below hroot hreq⟩

theorem opens_below_sample :
    ∃ s, (system (workflowRouter "/srv/www")).Reachable s ∧
      s.exchanges.flatMap Exchange.opened = ["/srv/www/index.html"] ∧
      ∀ e ∈ s.exchanges, ∀ path ∈ e.opened, ∃ docRoot,
        (workflowRouter "/srv/www").find e.request.target = .ok (some (.docRootEndpoint docRoot)) ∧
          (docRoot ≠ "" → ∀ cwd, locate cwd docRoot.toList <+: locate cwd path.toList) := by
  have hexec : ((system (workflowRouter "/srv/www")).exec (system (workflowRouter "/srv/www")).start sampleRun).any
      (fun s => s.exchanges.flatMap Exchange.opened = ["/srv/www/index.html"]) = true := by decide +kernel
  obtain ⟨s, hs, hopened⟩ := System.exec_any hexec
  have hr := System.exec_reachable hs
  refine ⟨s, hr, of_decide_eq_true hopened, fun e he path hp => ?_⟩
  obtain ⟨docRoot, hfind, -, -, hbelow⟩ := opens_below hr e he path hp
  exact ⟨docRoot, hfind, hbelow⟩

/-! When no operation is pending any more. -/

lemma goes_silent (hgo : Goes router n xs op c t) : t.pending = [] ↔ c.Drops router := by
  cases hgo with
  | accepted => simp [Completion.Drops]
  | answered i req fs hr hmute => simp [Completion.Drops, hmute]
  | unanswered i req fs hr hmute => simp [Completion.Drops, hmute]
  | dropped hc => exact iff_of_true rfl hc
  | _ => simp [Completion.Drops]

lemma leads_back (n : ℕ) (xs : List Exchange) (hop : op ≠ .accept true) :
    ∃ u, (system router).Leads (fun _ => True) ⟨[op], n, xs⟩ u ∧ u.pending = [.accept false] := by
  have hshutdown (i : ℕ) : (system router).Leads (fun _ => True) ⟨[.shutdown i], n, xs⟩ ⟨[.accept false], n, xs⟩ :=
    .head (a := (0, .onShutdown .success)) trivial rfl (.refl _)
  have hread (i : ℕ) : (system router).Leads (fun _ => True) ⟨[.read i], n, xs⟩ ⟨[.accept false], n, xs⟩ :=
    .head (a := (0, .onRead .endOfStream ⟨.other, "", 11, false⟩ ⟨fun _ => .error .noSuchFileOrDirectory⟩))
      trivial rfl
      (hshutdown i)
  have hhandshake (i : ℕ) : (system router).Leads (fun _ => True) ⟨[.handshake i], n, xs⟩ ⟨[.accept false], n, xs⟩ :=
    .head (a := (0, .onHandshake .other)) trivial rfl (hshutdown i)
  cases op with
  | accept closed =>
    cases closed with
    | true => exact absurd rfl hop
    | false => exact ⟨_, .refl _, rfl⟩
  | dispatch i => exact ⟨_, .head (a := (0, .onRun)) trivial rfl (hhandshake i), rfl⟩
  | handshake i => exact ⟨_, hhandshake i, rfl⟩
  | read i => exact ⟨_, hread i, rfl⟩
  | write i r =>
    refine ⟨⟨[.accept false], n, xs⟩, ?_, rfl⟩
    cases heof : r.needEof with
    | true =>
      refine .head (a := (0, .onWrite .success)) trivial ?_ (hshutdown i)
      simp [system, step, complete, onWrite, doClose, async, heof]
    | false =>
      refine .head (a := (0, .onWrite .success)) trivial ?_ (hread i)
      simp [system, step, complete, onWrite, doRead, async, heof]
  | shutdown i => exact ⟨_, hshutdown i, rfl⟩

lemma silent_run {h : List (Server × (ℕ × Completion))} (run : (system router).Run h t) :
    t.pending = [] ↔ ∃ e ∈ h, e.2.2.Drops router := by
  induction run with
  | start => simp [system, doAccept, async]
  | @step h s t a run hs ih =>
    obtain ⟨op, hop, hgo⟩ := step_single (orderly ⟨h, run⟩).single hs
    have hearlier : ¬ ∃ e ∈ h, e.2.2.Drops router := fun hdrop => by simp [ih.mpr hdrop] at hop
    rw [goes_silent hgo]
    constructor
    · intro hdrop
      exact ⟨(s, a), by simp, hdrop⟩
    · rintro ⟨e, he, hdrop⟩
      rcases List.mem_append.mp he with he | he
      · exact absurd ⟨e, he, hdrop⟩ hearlier
      · rwa [List.mem_singleton.mp he] at hdrop

/-- The service falls silent with the first connection that is not taken, request that is not read,
response that is not written, or request for a mute endpoint, and without one it gets back to an accept. -/
theorem silent_iff {h : List (Server × (ℕ × Completion))} (run : (system router).Run h t) :
    (t.pending = [] ↔ ∃ e ∈ h, e.2.2.Drops router) ∧
      (t.pending = [] → ∀ a, step router t a = none) ∧
      (t.pending ≠ [] → ∃ u, (system router).Leads (fun _ => True) t u ∧ u.pending = [.accept false]) := by
  refine ⟨silent_run run, fun hnone a => by simp [step, hnone], fun hsome => ?_⟩
  obtain ⟨op, hop, hfits⟩ := (orderly ⟨h, run⟩).pending.resolve_left hsome
  have hlive : op ≠ .accept true := by
    rintro rfl
    exact Bool.false_ne_true hfits.symm
  have hback : ∃ u, (system router).Leads (fun _ => True) ⟨[op], t.sessions, t.exchanges⟩ u ∧
      u.pending = [.accept false] := leads_back t.sessions t.exchanges hlive
  rwa [← hop] at hback

theorem silent_iff_sample :
    ∃ h t, (system (workflowRouter "/srv/www")).Run h t ∧ t.pending = [] ∧
      ∃ e ∈ h, e.2.2.Drops (workflowRouter "/srv/www") := by
  have hexec : (system (workflowRouter "/srv/www")).exec (system (workflowRouter "/srv/www")).start
      [(0, .onAccept .success .success), (0, .onRun), (0, .onHandshake .success),
        (0, .onRead .other ⟨.get, "/", 11, true⟩ ⟨fun _ => .error .noSuchFileOrDirectory⟩)] = some ⟨[], 1, []⟩ := rfl
  have run := System.exec_trace hexec
  exact ⟨_, _, run, rfl, (silent_iff run).1.mp rfl⟩

end Server

end DagScheduler.Service

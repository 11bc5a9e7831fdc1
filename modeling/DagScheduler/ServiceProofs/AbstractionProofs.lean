import DagScheduler.Library.Refinements
import DagScheduler.ServiceProofs.ListeningProofs
import DagScheduler.ServiceProofs.ServerProofs

/-! The service without its messages: of a response only the end of the connection, of a request only
how it is handled. -/

namespace DagScheduler.Service

open Library.Transitions

variable {router : Router} {s t : Server}

namespace Server

def Operation.outline : Operation → Service.Operation
  | .accept closed => .accept closed
  | .dispatch i => .dispatch i
  | .handshake i => .handshake i
  | .read i => .read i
  | .write i r => .write i r.needEof
  | .shutdown i => .shutdown i

/-- How `on_read` gets to its response, and whether the one that it sends itself ends the connection. -/
def handling (router : Router) (fs : FileSystem) (req : Request) : Handling × Bool :=
  match router.find req.target with
  | .error _ | .ok none => (.notFound, (Detail.notFoundHandler req.target req).needEof)
  | .ok (some handler) =>
    (.handled ((handler.call fs req).sent.map Response.needEof) (handler.call fs req).status,
      (Detail.serverErrorHandler "Internal Server error" req).needEof)

def Completion.outline (router : Router) : Completion → Service.Completion
  | .onAccept ec keepAlive => .onAccept ec keepAlive
  | .onRun => .onRun
  | .onHandshake ec => .onHandshake ec
  | .onRead ec req fs => .onRead ec (handling router fs req).1 (handling router fs req).2
  | .onWrite ec => .onWrite ec
  | .onShutdown ec => .onShutdown ec

def outline (s : Server) : WorkflowService := ⟨s.pending.map Operation.outline, s.sessions⟩

lemma outline_async (s : Server) (op : Operation) : (s.async op).outline = s.outline.async op.outline := by
  simp [outline, async, WorkflowService.async]

lemma outline_sends (i : ℕ) (responses : List Response) : (responses.foldl (send i) s).outline =
    (responses.map Response.needEof).foldl (fun s eof => HTTPSSession.send s i eof) s.outline := by
  induction responses generalizing s with
  | nil => rfl
  | cons r responses ih =>
    rw [List.foldl_cons, ih, send, outline_async]
    rfl

lemma handling_proper (hmute : ∀ target, ¬ router.Mute target) (fs : FileSystem) (req : Request) :
    (handling router fs req).1.Proper = true := by
  unfold handling
  cases hfind : router.find req.target with
  | error => rfl
  | ok found =>
    cases found with
    | none => rfl
    | some handler =>
      cases handler with
      | endpointHandler => rfl
      | docRootEndpoint docRoot =>
        obtain ⟨-, r, hsent, -⟩ := (DocRootEndpoint.handleRequest_answers docRoot fs req).responds
        simp [Handling.Proper, EndpointHandler.call, hsent]
      | registerDAGEndpoint => exact absurd hfind (hmute _)

lemma outline_onRead (s : Server) (i : ℕ) (ec : ErrorCode) (req : Request) (fs : FileSystem) :
    (onRead router s i ec req fs).outline =
      HTTPSSession.onRead s.outline i ec (handling router fs req).1 (handling router fs req).2 := by
  have hsends (responses : List Response) (xs : List Exchange) :
      (responses.foldl (send i) { s with exchanges := xs }).outline =
        (responses.map Response.needEof).foldl (fun s eof => HTTPSSession.send s i eof) s.outline :=
    outline_sends i responses
  cases ec with
  | endOfStream => exact outline_async s (.shutdown i)
  | other => rfl
  | success =>
    cases hfind : router.find req.target with
    | error e =>
      simp only [onRead, respond, handling, hfind]
      exact hsends [_] _
    | ok found =>
      cases found with
      | none =>
        simp only [onRead, respond, handling, hfind]
        exact hsends [_] _
      | some handler =>
        simp only [onRead, respond, handling, hfind, HTTPSSession.onRead]
        refine (hsends _ _).trans ?_
        rw [List.map_append, List.foldl_append]
        cases (handler.call fs req).status <;> rfl

lemma outline_complete (hmute : ∀ target, ¬ router.Mute target) {op : Operation} {c : Completion}
    (hs : complete router s op c = some t) : s.outline.complete op.outline (c.outline router) = some t.outline := by
  cases op with
  | accept closed =>
    cases c with
    | onAccept ec keepAlive =>
      simp only [complete, Option.ite_none_left_eq_some, Option.some.injEq] at hs
      obtain ⟨hopen, rfl⟩ := hs
      refine (if_neg hopen).trans (congrArg some ?_)
      unfold HTTPSListener.onAccept onAccept
      split_ifs
      · rfl
      · exact (outline_async { s with sessions := s.sessions + 1 } (.dispatch s.sessions)).symm
      · rfl
    | _ => simp [complete] at hs
  | dispatch i =>
    cases c with
    | onRun =>
      obtain rfl := Option.some.inj hs
      exact congrArg some (outline_async s (.handshake i)).symm
    | _ => simp [complete] at hs
  | handshake i =>
    cases c with
    | onHandshake ec =>
      obtain rfl := Option.some.inj hs
      refine congrArg some ?_
      unfold HTTPSSession.onHandshake onHandshake
      split_ifs
      · exact (outline_async s (.shutdown i)).symm
      · exact (outline_async s (.read i)).symm
    | _ => simp [complete] at hs
  | read i =>
    cases c with
    | onRead ec req fs =>
      obtain rfl := Option.some.inj hs
      exact (if_pos (handling_proper hmute fs req)).trans (congrArg some (outline_onRead s i ec req fs).symm)
    | _ => simp [complete] at hs
  | write i r =>
    cases c with
    | onWrite ec =>
      obtain rfl := Option.some.inj hs
      refine congrArg some ?_
      unfold HTTPSSession.onWrite onWrite
      split_ifs
      · rfl
      · exact (outline_async s (.shutdown i)).symm
      · exact (outline_async s (.read i)).symm
    | _ => simp [complete] at hs
  | shutdown i =>
    cases c with
    | onShutdown ec =>
      obtain rfl := Option.some.inj hs
      have hclose : (s.pending.map close).map Operation.outline =
        (s.pending.map Operation.outline).map HTTPSListener.close := by
        rw [List.map_map, List.map_map]
        apply List.map_congr_left
        intro op _
        cases op <;> rfl
      simp [WorkflowService.complete, Completion.outline, Operation.outline, HTTPSSession.onShutdown,
        HTTPSListener.reset,
        HTTPSListener.run, HTTPSListener.doAccept, WorkflowService.async, reset, doAccept, async, outline, ← hclose]
    | _ => simp [complete] at hs

/-- Without mute endpoints, each step of the service is one of its outline. -/
def toOutline (hmute : ∀ target, ¬ router.Mute target) : Refinement (system router) WorkflowService.system where
  state := outline
  label _ a := some (a.1, a.2.outline router)
  start := rfl
  stutters _ _ _ _ _ hl := nomatch hl
  steps s a t b _ hs hl := by
    obtain rfl := Option.some.inj hl
    obtain ⟨op, hop, hc⟩ := Option.bind_eq_some_iff.mp hs
    refine Option.bind_eq_some_iff.mpr ⟨op.outline, by simp [outline, hop], ?_⟩
    have hrest := outline_complete hmute hc
    simp only [outline] at hrest ⊢
    rwa [List.eraseIdx_map]

/-- Where no endpoint is mute, a run with its messages is a run without them, each step one step, and one
of the two is silent when the other is. -/
theorem outline_run (hmute : ∀ target, ¬ router.Mute target) {h : List (Server × (ℕ × Completion))}
    (run : (system router).Run h t) :
    WorkflowService.system.Run (h.map fun e => (e.1.outline, e.2.1, e.2.2.outline router)) t.outline ∧
      (t.pending ≠ [] ↔ t.outline.Hears) := by
  constructor
  · have hrun := (toOutline hmute).run run
    have hhistory : (toOutline hmute).history h = h.map fun e => (e.1.outline, e.2.1, e.2.2.outline router) := by
      simp [Refinement.history, toOutline]
    rwa [hhistory] at hrun
  · constructor
    · intro hsome
      obtain ⟨op, hop, hfits⟩ := (orderly ⟨h, run⟩).pending.resolve_left hsome
      refine ⟨op.outline, by simp [outline, hop], ?_⟩
      cases op with
      | accept closed => exact congrArg not hfits
      | _ => rfl
    · rintro ⟨op, hmem, -⟩ hnone
      simp [outline, hnone] at hmem

lemma workflowRouter_mute (docRoot target : String) : ¬ (workflowRouter docRoot).Mute target := by
  unfold Router.Mute Router.find workflowRouter Router.registerEndpoint
  by_cases htarget : target = "/index.html" <;> simp [htarget, List.lookup_cons, beq_eq_false_iff_ne.mpr, pure,
    Except.pure]

theorem outline_run_sample :
    ∃ h t, (system (workflowRouter "/srv/www")).Run h t ∧ t.exchanges.length = 2 ∧
      WorkflowService.system.Run (h.map fun e => (e.1.outline, e.2.1,
        e.2.2.outline (workflowRouter "/srv/www"))) t.outline ∧
      (t.pending ≠ [] ↔ t.outline.Hears) := by
  have hexec : ((system (workflowRouter "/srv/www")).exec (system (workflowRouter "/srv/www")).start sampleRun).any
      (fun s => s.exchanges.length = 2) = true := by decide +kernel
  obtain ⟨t, ht, hlength⟩ := System.exec_any hexec
  have run := System.exec_trace ht
  exact ⟨_, t, run, of_decide_eq_true hlength, outline_run (workflowRouter_mute _) run⟩

end Server

end DagScheduler.Service

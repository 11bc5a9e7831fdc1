import DagScheduler.Service.Endpoints
import DagScheduler.Service.HttpsSession

/-! The listener and its sessions with the messages they exchange, over a router and its handlers. -/

namespace DagScheduler.Service

open Library.Transitions

/-- What `on_read` sends for a request, and the paths that were opened. An exception of the router, and
a null pointer, end in the same response. -/
def respond (router : Router) (fs : FileSystem) (req : Request) : List Response × List String :=
  match router.find req.target with
  | .error _ | .ok none => ([Detail.notFoundHandler req.target req], [])
  | .ok (some handler) =>
    let handled := handler.call fs req
    (handled.sent ++ if handled.status then [] else [Detail.serverErrorHandler "Internal Server error" req],
      handled.opened)

namespace Server

inductive Operation where
  | accept (closed : Bool)
  | dispatch (session : ℕ)
  | handshake (session : ℕ)
  | read (session : ℕ)
  | write (session : ℕ) (res : Response)
  | shutdown (session : ℕ)
  deriving DecidableEq

/-- A completion handler with its arguments; of `on_accept` also what `set_option` reports, of
`on_read` also the files at that time. -/
inductive Completion where
  | onAccept (ec keepAlive : ErrorCode)
  | onRun
  | onHandshake (ec : ErrorCode)
  | onRead (ec : ErrorCode) (req : Request) (fs : FileSystem)
  | onWrite (ec : ErrorCode)
  | onShutdown (ec : ErrorCode)

structure Exchange where
  session : ℕ
  request : Request
  responses : List Response
  opened : List String
  deriving DecidableEq

end Server

/-- `exchanges` only observes: the requests that were read, in order, with what was sent for them. -/
structure Server where
  pending : List Server.Operation
  sessions : ℕ
  exchanges : List Server.Exchange

namespace Server

def async (s : Server) (op : Operation) : Server := { s with pending := s.pending ++ [op] }

def doAccept (s : Server) : Server := s.async (.accept false)

def close : Operation → Operation
  | .accept _ => .accept true
  | op => op

/-- `HTTPSListener::reset`. -/
def reset (s : Server) : Server := doAccept { s with pending := s.pending.map close }

def onAccept (s : Server) (ec keepAlive : ErrorCode) : Server :=
  if ec ≠ .success then s
  else if keepAlive = .success then { s with sessions := s.sessions + 1 }.async (.dispatch s.sessions)
  else s

def onRun (s : Server) (self : ℕ) : Server := s.async (.handshake self)

def doRead (s : Server) (self : ℕ) : Server := s.async (.read self)

def doClose (s : Server) (self : ℕ) : Server := s.async (.shutdown self)

def onHandshake (s : Server) (self : ℕ) (ec : ErrorCode) : Server :=
  if ec ≠ .success then doClose s self else doRead s self

/-- `SessionResponder::send`. -/
def send (self : ℕ) (s : Server) (msg : Response) : Server := s.async (.write self msg)

def onRead (router : Router) (s : Server) (self : ℕ) (ec : ErrorCode) (req : Request) (fs : FileSystem) : Server :=
  if ec = .endOfStream then doClose s self
  else if ec ≠ .success then s
  else
    let (responses, opened) := respond router fs req
    responses.foldl (send self) { s with exchanges := s.exchanges ++ [⟨self, req, responses, opened⟩] }

def onWrite (s : Server) (self : ℕ) (close : Bool) (ec : ErrorCode) : Server :=
  if ec ≠ .success then s
  else if close then doClose s self
  else doRead s self

def complete (router : Router) (s : Server) : Operation → Completion → Option Server
  | .accept closed, .onAccept ec keepAlive => if closed && ec = .success then none else some (onAccept s ec keepAlive)
  | .dispatch i, .onRun => some (onRun s i)
  | .handshake i, .onHandshake ec => some (onHandshake s i ec)
  | .read i, .onRead ec req fs => some (onRead router s i ec req fs)
  | .write i res, .onWrite ec => some (onWrite s i res.needEof ec)
  | .shutdown _, .onShutdown _ => some (reset s)
  | _, _ => none

def step (router : Router) (s : Server) (a : ℕ × Completion) : Option Server :=
  (s.pending[a.1]?).bind fun op => complete router { s with pending := s.pending.eraseIdx a.1 } op a.2

def system (router : Router) : System Server (ℕ × Completion) where
  start := doAccept ⟨[], 0, []⟩
  step := step router

end Server

end DagScheduler.Service

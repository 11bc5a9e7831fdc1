import DagScheduler.Library.Transitions

/-! `WorkflowService::HTTPSListener` and the sessions it starts, seen through the asynchronous
operations that are pending. A step is the completion of one of them; its result is part of the label. -/

namespace DagScheduler.Service

open Library.Transitions

inductive ErrorCode where
  | success | endOfStream | other
  deriving DecidableEq

inductive Operation where
  /-- Whether the acceptor was closed since; the operation then ends with an error. -/
  | accept (closed : Bool)
  | dispatch (session : ℕ)
  | handshake (session : ℕ)
  | read (session : ℕ)
  | write (session : ℕ) (close : Bool)
  | shutdown (session : ℕ)
  deriving DecidableEq

/-- What becomes of a request. Of each response only `need_eof()` matters. -/
inductive Handling where
  /-- `Router::operator[]` throws, or the registered pointer is null. -/
  | notFound
  | handled (sent : List Bool) (status : Bool)

/-- A completion handler with its arguments; of `on_accept` also what `set_option` reports, of
`on_read` also the handling and whether the response that `on_read` itself sends needs EOF. -/
inductive Completion where
  | onAccept (ec keepAlive : ErrorCode)
  | onRun
  | onHandshake (ec : ErrorCode)
  | onRead (ec : ErrorCode) (handling : Handling) (needEof : Bool)
  | onWrite (ec : ErrorCode)
  | onShutdown (ec : ErrorCode)

structure WorkflowService where
  pending : List Operation
  sessions : ℕ

namespace WorkflowService

def async (s : WorkflowService) (op : Operation) : WorkflowService := { s with pending := s.pending ++ [op] }

end WorkflowService

namespace HTTPSSession

def run (s : WorkflowService) (self : ℕ) : WorkflowService := s.async (.dispatch self)

def send (s : WorkflowService) (self : ℕ) (needEof : Bool) : WorkflowService := s.async (.write self needEof)

def doRead (s : WorkflowService) (self : ℕ) : WorkflowService := s.async (.read self)

def doClose (s : WorkflowService) (self : ℕ) : WorkflowService := s.async (.shutdown self)

end HTTPSSession

namespace HTTPSListener

def doAccept (s : WorkflowService) : WorkflowService := s.async (.accept false)

def run (s : WorkflowService) : WorkflowService := doAccept s

def close : Operation → Operation
  | .accept _ => .accept true
  | op => op

def reset (s : WorkflowService) : WorkflowService := run { s with pending := s.pending.map close }

def onAccept (s : WorkflowService) (ec keepAlive : ErrorCode) : WorkflowService :=
  if ec ≠ .success then s
  else if keepAlive = .success then HTTPSSession.run { s with sessions := s.sessions + 1 } s.sessions
  else s

end HTTPSListener

namespace HTTPSSession

def onRun (s : WorkflowService) (self : ℕ) : WorkflowService := s.async (.handshake self)

def onHandshake (s : WorkflowService) (self : ℕ) (ec : ErrorCode) : WorkflowService :=
  if ec ≠ .success then doClose s self else doRead s self

def onRead (s : WorkflowService) (self : ℕ) (ec : ErrorCode) (handling : Handling) (needEof : Bool) :
    WorkflowService :=
  if ec = .endOfStream then doClose s self
  else if ec ≠ .success then s
  else match handling with
  | .notFound => send s self needEof
  | .handled sent status =>
    let s := sent.foldl (fun s eof => send s self eof) s
    if !status then send s self needEof else s

def onShutdown (s : WorkflowService) : WorkflowService := HTTPSListener.reset s

def onWrite (s : WorkflowService) (self : ℕ) (close : Bool) (ec : ErrorCode) : WorkflowService :=
  if ec ≠ .success then s
  else if close then doClose s self
  else doRead s self

end HTTPSSession

/-- An endpoint handler sends exactly one response or returns false. -/
def Handling.Proper : Handling → Bool
  | .notFound => true
  | .handled sent status => sent.length = 1 || !status

namespace WorkflowService

/-- The handler that is bound to the operation. -/
def complete (s : WorkflowService) : Operation → Completion → Option WorkflowService
  | .accept closed, .onAccept ec keepAlive =>
    if closed && ec = .success then none else some (HTTPSListener.onAccept s ec keepAlive)
  | .dispatch i, .onRun => some (HTTPSSession.onRun s i)
  | .handshake i, .onHandshake ec => some (HTTPSSession.onHandshake s i ec)
  | .read i, .onRead ec handling needEof =>
    if handling.Proper then some (HTTPSSession.onRead s i ec handling needEof) else none
  | .write i close, .onWrite ec => some (HTTPSSession.onWrite s i close ec)
  | .shutdown _, .onShutdown _ => some (HTTPSSession.onShutdown s)
  | _, _ => none

def step (s : WorkflowService) (a : ℕ × Completion) : Option WorkflowService :=
  (s.pending[a.1]?).bind fun op => complete { s with pending := s.pending.eraseIdx a.1 } op a.2

def system : System WorkflowService (ℕ × Completion) where
  start := HTTPSListener.run ⟨[], 0⟩
  step := step

end WorkflowService

end DagScheduler.Service

import FtpControl.Session

namespace FtpControl

/-- Where a session stands between its steps. -/
inductive Runner.Phase where
  | head
  /-- Nothing can be done without a request. -/
  | idle
  /-- An operation is about to begin; `watch` tells that it only keeps watch. -/
  | ready (op : Operation) (watch : Bool)
  | waiting (wait : Wait) (watch : Bool)
  | over
  deriving DecidableEq, Repr

structure Runner where
  session : Session
  phase : Runner.Phase := .head

namespace Runner

inductive Input where
  /-- It goes on by itself. -/
  | proceed
  | request (request : Request)
  | answer (answer : Answer)
  /-- No request will come any more. -/
  | close
  deriving DecidableEq, Repr

/-- The step at the head of the loop: what was put off is taken up, or the next operation. With nothing
to do the session keeps watch on the connection, until anything is asked of it. -/
def atHead (s : Session) : Runner :=
  match s.transport.next? with
  | some (op, transport) => { session := { s with transport }, phase := .ready op false }
  | none =>
    if s.stage = .loggedIn then
      match s.deferred with
      | request :: deferred => { session := { s with deferred }.handle request }
      | [] =>
        if s.transport.isOpen then { session := s, phase := .ready .readLine true }
        else { session := s, phase := .idle }
    else { session := s, phase := .idle }

/-- Goes on from an operation that has ended or has to wait. -/
def settle (today : Date) (s : Session) (watch : Bool) : Transport × Progress → Runner
  | (transport, .blocked wait) => { session := { s with transport }, phase := .waiting wait watch }
  | (transport, .done none) => { session := { s with transport } }
  | (transport, .done (some outcome)) => { session := { s with transport }.notice today outcome }

/-- Takes a request while an operation is under way. -/
def interrupt (r : Runner) (watch : Bool) (request : Request) : Runner :=
  if request.interrupts ∨ watch then { session := r.session.handle request }
  else { r with session := { r.session with deferred := r.session.deferred ++ [request] } }

def finish (s : Session) : Runner :=
  { session := { s with transport := s.transport.disconnect }, phase := .over }

/-- One step; an input that cannot come in this phase makes none. -/
def step? (today : Date) (r : Runner) (input : Input) : Option Runner :=
  match r.phase, input with
  | .head, .proceed => some (atHead r.session)
  | .ready op watch, .proceed =>
    some (settle today r.session watch (r.session.transport.begin op))
  | .idle, .request request => some { session := r.session.handle request }
  | .ready _ watch, .request request => some (r.interrupt watch request)
  | .waiting _ watch, .request request => some (r.interrupt watch request)
  | .waiting wait watch, .answer answer =>
    (r.session.transport.resume wait answer).map (settle today r.session watch)
  | .idle, .close | .ready _ _, .close | .waiting _ _, .close => some (finish r.session)
  | _, _ => none

end Runner

end FtpControl

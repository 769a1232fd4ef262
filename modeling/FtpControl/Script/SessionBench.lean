import FtpControl.Script.TransportBench
import FtpControl.Session.Runner

namespace FtpControl.Script

structure SessionBench where
  runner : Runner
  net : Network
  /-- When the operation under way began. -/
  started : Nat := 0

namespace SessionBench

def create (profile : Profile) (hasRoots : Bool) (net : Network) : SessionBench where
  runner := { session := .create profile hasRoots }
  net

def wait? (r : Runner) : Option Wait :=
  match r.phase with
  | .waiting wait _ => some wait
  | _ => none

/-- One step of the runner; the network sees which connections are still in use. -/
def advance (today : Date) (b : SessionBench) (input : Runner.Input) : Option SessionBench :=
  (b.runner.step? today input).map fun runner =>
    { b with runner, net := b.net.retain (runner.session.transport.inUse (wait? runner)) }

def beginOperation (today : Date) (b : SessionBench) : Option SessionBench :=
  (b.advance today .proceed).map fun b =>
    let net := match wait? b.runner with
      | some wait => b.net.note wait
      | none => b.net
    { b with net, started := net.clock }

/-- The watchdog of the operation under way has run out. -/
def isLate (b : SessionBench) (wait : Wait) : Bool :=
  wait.guarded && watchdogExpired b.runner.session.profile.timeout b.started b.net.clock

/-- The session goes on by itself, if it can; the network sees in any case what it waits for. -/
def move (today : Date) (b : SessionBench) : SessionBench × Bool :=
  let moved (next : Option SessionBench) : SessionBench × Bool := (next.getD b, next.isSome)
  match b.runner.phase with
  | .head => moved (b.advance today .proceed)
  | .ready _ _ => moved (b.beginOperation today)
  | .waiting wait _ =>
    let (net, answer) := b.net.answer? b.runner.session.transport.trust wait
    let b := { b with net }
    match answer <|> (if b.isLate wait then some .expired else none) with
    | some answer =>
      match b.advance today (.answer answer) with
      | some b => (b, true)
      | none => (b, false)
    | none => (b, false)
  | .idle | .over => (b, false)

def moves (today : Date) : Nat → SessionBench → SessionBench
  | 0, b => b
  | fuel + 1, b =>
    match b.move today with
    | (b, true) => moves today fuel b
    | (b, false) => b

def load (net : Network) : Nat :=
  let replySize (replies : List (Option (List UInt8))) : Nat :=
    replies.foldl (fun n reply => n + (reply.elim 0 List.length + 1)) 0
  net.peers.foldl (fun n p => n + (p.inbound.length + replySize p.replies)) 0 +
    net.scene.servers.foldl (fun n replies => n + replySize replies) 0

/-- A bound for the steps up to the next wait: a few for each byte, address and request in store. -/
def bound (b : SessionBench) : Nat :=
  let found := match b.net.scene.lookup with
    | .found endpoints => endpoints.length
    | _ => 0
  16 * (load b.net + found + b.runner.session.deferred.length + 16)

def settle (today : Date) (b : SessionBench) : SessionBench :=
  b.moves today b.bound

def happen (today : Date) (b : SessionBench) (what : Happening) : SessionBench :=
  { b with net := b.net.happen what }.settle today

def stimulate (today : Date) (b : SessionBench) (input : Runner.Input) : SessionBench :=
  ((b.advance today input).getD b).settle today

def takeNews (b : SessionBench) : List Event × SessionBench :=
  (b.runner.session.news,
    { b with runner := { b.runner with session := { b.runner.session with news := [] } } })

/-- The clock moves to the end of the watchdog's period, if the session waits under a watchdog. -/
def passTime? (b : SessionBench) : Option SessionBench :=
  let timeout := b.runner.session.profile.timeout
  match wait? b.runner with
  | some wait =>
    if wait.guarded ∧ timeout.toNat + 1 < Nat.pow 2 64 then
      some { b with net := { b.net with clock := b.started + timeout.toNat * 1000 } }
    else none
  | none => none

end SessionBench

end FtpControl.Script

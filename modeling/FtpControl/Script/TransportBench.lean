import FtpControl.Script.Network

namespace FtpControl.Script

/-- A watchdog's time is over. The longest period never is. -/
def watchdogExpired (timeout : UInt64) (started now : Nat) : Bool :=
  timeout.toNat + 1 < Nat.pow 2 64 && timeout.toNat * 1000 ≤ now - started

structure TransportBench where
  transport : Transport
  net : Network
  /-- The watchdog's period in seconds. -/
  timeout : UInt64 := 15
  deriving DecidableEq, Repr

namespace TransportBench

inductive Outcome where
  | finished (notice : Option Notice)
  | cancelled
  deriving DecidableEq, Repr

def settle (b : TransportBench) (wait : Option Wait) : TransportBench :=
  { b with net := b.net.retain (b.transport.inUse wait) }

/-- Waits with an operation that began at the given time. -/
def await (started : Nat) :
    Nat → TransportBench → Wait → List Happening → TransportBench × Outcome
  | 0, b, _, _ => (b.settle none, .cancelled)
  | fuel + 1, b, wait, during =>
    let (net, answer) := b.net.answer? b.transport.trust wait
    let b := { b with net }
    let late := wait.guarded && watchdogExpired b.timeout started net.clock
    match answer <|> (if late then some Answer.expired else none) with
    | some answer =>
      match b.transport.resume wait answer with
      | some (transport, .done notice) =>
        ({ b with transport }.settle none, .finished notice)
      | some (transport, .blocked wait) =>
        await started fuel ({ b with transport }.settle (some wait)) wait during
      | none => (b.settle none, .cancelled)
    | none =>
      match during with
      | what :: during => await started fuel { b with net := b.net.happen what } wait during
      | [] => (b.settle none, .cancelled)

/-- A bound for the answers that one operation can take: each takes a byte or ends it. -/
def bound (b : TransportBench) (wait : Wait) (during : List Happening) : Nat :=
  let inbound := b.net.peers.foldl (fun n p => n + p.inbound.length) 0
  let coming := during.foldl (fun n happening => n + happening.size) 0
  inbound + coming + during.length + wait.unsent + 2

def execute (b : TransportBench) (op : Operation) (during : List Happening) :
    TransportBench × Outcome :=
  match b.transport.begin op with
  | (transport, .done notice) => ({ b with transport }.settle none, .finished notice)
  | (transport, .blocked wait) =>
    let b := { b with transport, net := b.net.note wait }.settle (some wait)
    b.await b.net.clock (b.bound wait during) wait during

/-- Executes the queued operations, up to the first that is cancelled. -/
def runQueue (during : List Happening) :
    Nat → TransportBench → TransportBench × List (Operation × Outcome)
  | 0, b => (b, [])
  | fuel + 1, b =>
    match b.transport.next? with
    | none => (b, [])
    | some (op, transport) =>
      match { b with transport }.execute op during with
      | (b, .cancelled) => (b, [(op, .cancelled)])
      | (b, outcome) =>
        let (b, results) := runQueue during fuel b
        (b, (op, outcome) :: results)

/-- A bound for the operations that the queue comes to: each lookup and each failed address adds
one. -/
def queueBound (b : TransportBench) : Nat :=
  let found := match b.net.scene.lookup with
    | .found endpoints => endpoints.length
    | _ => 0
  (b.transport.queue.length + 1) * (found + b.transport.candidates.length + 2)

def run (b : TransportBench) (during : List Happening) :
    TransportBench × List (Operation × Outcome) :=
  b.runQueue during b.queueBound

end TransportBench

end FtpControl.Script

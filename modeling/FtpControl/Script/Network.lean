import FtpControl.Script.Peer

namespace FtpControl.Script

inductive Lookup where
  | found (endpoints : List Endpoint)
  | fails (message : String)
  | stalls
  deriving DecidableEq, Repr

inductive Dialling where
  | accepts
  | fails (message : String)
  | stalls
  deriving DecidableEq, Repr

/-- What is settled beforehand. -/
structure Scene where
  lookup : Lookup := .found []
  /-- The addresses that do not just accept. -/
  endpoints : List (Endpoint × Dialling) := []
  /-- The replies of each connection, in the order in which they are accepted. -/
  servers : List (List (Option (List UInt8))) := []
  /-- Lookups go through the resolver of the system: they are kept, and its errors name the host. -/
  systemResolver : Bool := false
  deriving DecidableEq, Repr

inductive Happening where
  | feed (bytes : List UInt8)
  | cut
  | readError (message : String)
  | writeError (message : String)
  | room (count : Option Nat)
  | offerTls
  | closeTls
  | advance (milliseconds : Nat)
  deriving DecidableEq, Repr

def Happening.size : Happening → Nat
  | .feed bytes => bytes.length
  | _ => 0

structure Report where
  dialed : List Endpoint := []
  sent : List UInt8 := []
  closed : Bool := false
  holdsHello : Bool := false
  lookups : List (String × UInt16) := []
  deriving DecidableEq, Repr

structure Network where
  scene : Scene
  /-- The far ends of the connections, in the order in which they were accepted. -/
  peers : List Peer := []
  /-- Milliseconds since the beginning. -/
  clock : Nat := 0
  seen : Report := {}
  deriving DecidableEq, Repr

namespace Network

def modifyPeer (net : Network) (connection : Nat) (f : Peer → Peer) : Network :=
  { net with peers := net.peers.modify connection f }

def happen (net : Network) (what : Happening) : Network :=
  let latest := net.modifyPeer (net.peers.length - 1)
  match what with
  | .feed bytes => latest fun p => p.feed bytes
  | .cut => latest fun p => { p with ending := p.ending <|> some .cut }
  | .readError message => latest fun p => { p with readError := some message }
  | .writeError message => latest fun p => { p with writeError := some message }
  | .room count => latest fun p => { p with room := count }
  | .offerTls => latest fun p => if p.security = .plain then { p with security := .offered } else p
  | .closeTls => latest fun p =>
    if p.security = .established then { p with ending := p.ending <|> some .orderly } else p
  | .advance milliseconds => { net with clock := net.clock + milliseconds }

/-- Notes the lookup or the call that a wait begins with. -/
def note (net : Network) : Wait → Network
  | .lookup host port =>
    if net.scene.systemResolver then
      { net with seen := { net.seen with lookups := net.seen.lookups ++ [(host, port)] } }
    else net
  | .dial endpoint => { net with seen := { net.seen with dialed := net.seen.dialed ++ [endpoint] } }
  | _ => net

def accept (net : Network) : Network × Answer :=
  let connection := net.peers.length
  let replies := net.scene.servers.getD connection []
  ({ net with peers := net.peers ++ [{ replies : Peer }.reply] }, .accepted connection)

def lookupMessage (net : Network) (host message : String) : String :=
  if net.scene.systemResolver then "Could not resolve " ++ host ++ ": " ++ message else message

def act (net : Network) (connection : Nat) (f : Peer → Peer × Option Answer) :
    Network × Option Answer :=
  match net.peers[connection]? with
  | none => (net, none)
  | some p =>
    let (p, answer) := f p
    (net.modifyPeer connection fun _ => p, answer)

/-- The answer to a wait, if there is one yet. -/
def answer? (net : Network) (trust : Trust) : Wait → Network × Option Answer
  | .lookup host _ =>
    match net.scene.lookup with
    | .found endpoints => (net, some (.found endpoints))
    | .fails message => (net, some (.lookupFailed (net.lookupMessage host message)))
    | .stalls => (net, none)
  | .dial endpoint =>
    match net.scene.endpoints.lookup endpoint with
    | none | some .accepts => net.accept.map id some
    | some (.fails message) => (net, some (.refused message))
    | some .stalls => (net, none)
  | .negotiate connection name =>
    net.act connection fun p => p.negotiate name trust.acceptInvalidCerts
  | .transmit stream rest =>
    match net.peers[stream.connection]? with
    | none => (net, none)
    | some p =>
      let (p, seen, answer) := p.write stream.secure rest
      let net := net.modifyPeer stream.connection fun _ => p
      ({ net with seen := { net.seen with sent := net.seen.sent ++ seen } }, answer)
  | .receive stream => net.act stream.connection fun p => p.read stream.secure

/-- The client holds on to these connections alone. -/
def retain (net : Network) (connections : List Nat) : Network :=
  let letGo (i : Nat) (p : Peer) : Bool := !p.dropped && !connections.contains i
  let closed := (net.peers.mapIdx letGo).any id
  { net with
    peers := net.peers.mapIdx fun i p => if letGo i p then { p with dropped := true } else p
    seen := { net.seen with closed := net.seen.closed || closed } }

def report (net : Network) : Report × Network :=
  let collected := net.peers.map Peer.collect
  let seen := { net.seen with
    sent := net.seen.sent ++ (collected.map Prod.snd).flatten
    holdsHello := net.peers.any Peer.holdsHello }
  (seen, { net with peers := collected.map Prod.fst, seen := {} })

end Network

end FtpControl.Script

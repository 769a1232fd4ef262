import FtpControl.Transport

namespace FtpControl.Script

inductive Security where
  | plain
  /-- It takes part in a handshake from now on. -/
  | offered
  | established
  deriving DecidableEq, Repr

inductive Ending where
  | cut
  /-- With a farewell inside the encryption. -/
  | orderly
  deriving DecidableEq, Repr

structure Peer where
  /-- The bytes on their way to the client, as it will see them. -/
  inbound : List UInt8 := []
  ending : Option Ending := none
  /-- The error that the client meets behind the bytes on their way. -/
  readError : Option String := none
  writeError : Option String := none
  /-- How many bytes the client can write before it has to wait. -/
  room : Option Nat := none
  /-- The replies to the lines to come; none closes the connection. -/
  replies : List (Option (List UInt8)) := []
  security : Security := .plain
  /-- How much of the beginning of a handshake the client has sent. -/
  hello : Nat := 0
  /-- The encrypted records that have not been looked at, latest first. -/
  records : List (List UInt8) := []
  /-- It has given up reading records. -/
  deaf : Bool := false
  /-- The client has let go of the connection. -/
  dropped : Bool := false
  deriving DecidableEq, Repr

namespace Peer

/-- The bytes that one record holds at most. -/
def recordSize : Nat := 16384

/-- The bytes that a record takes beside its content. -/
def recordCost : Nat := 22

/-- The bytes that the beginning of a handshake takes. -/
def helloSize : Nat := 220

def feed (p : Peer) (bytes : List UInt8) : Peer :=
  { p with inbound := p.inbound ++ bytes }

/-- Closes if the script says so at this point. -/
def closeIfDue (p : Peer) : Peer :=
  match p.replies with
  | none :: replies => { p with replies, ending := p.ending <|> some .cut }
  | _ => p

def reply (p : Peer) : Peer :=
  match p.replies with
  | some bytes :: replies => ({ p with replies }.feed bytes).closeIfDue
  | _ => p.closeIfDue

/-- Cuts bytes into records, the latest first. -/
def intoRecords (bytes : List UInt8) : List (List UInt8) :=
  go (bytes.length / recordSize + 1) bytes []
where
  /-- Cuts off one record after the other. -/
  go : Nat → List UInt8 → List (List UInt8) → List (List UInt8)
    | 0, _, records => records
    | fuel + 1, bytes, records =>
      if bytes.isEmpty then records
      else go fuel (bytes.drop recordSize) (bytes.take recordSize :: records)

/-- Takes what the client writes, and tells which bytes of it are seen at once. A plain line feed
brings the next reply; plain bytes mean nothing to a far end that expects a handshake. -/
def take (p : Peer) (bytes : List UInt8) : Peer × List UInt8 :=
  match p.security with
  | .plain =>
    let lines := bytes.count LineBuffer.feed
    (Nat.repeat reply lines p, bytes)
  | .offered => (p, [])
  | .established => ({ p with records := intoRecords bytes ++ p.records }, [])

/-- The client writes as much as there is room for; the bytes that are seen at once come with the
answer. -/
def write (p : Peer) (secure : Bool) (bytes : List UInt8) : Peer × List UInt8 × Option Answer :=
  match p.writeError with
  | some message => (p, [], some (.writeFailed message))
  | none =>
    let cost := if secure then recordCost * (bytes.length / recordSize + 1) else 0
    match p.room with
    | none =>
      let (p, seen) := p.take bytes
      (p, seen, some (.took bytes.length))
    | some room =>
      if room = 0 ∨ (secure ∧ room < bytes.length + cost) then (p, [], none)
      else
        let count := min room bytes.length
        let (p, seen) := { p with room := some (room - count - cost) }.take (bytes.take count)
        (p, seen, some (.took count))

/-- Looks at the records. One that has to hold more than a record's worth of text while there is
more to come gives up. -/
def collect (p : Peer) : Peer × List UInt8 :=
  match p.records with
  | [] => (p, [])
  | last :: earlier =>
    let waiting := earlier.flatten.length
    if p.deaf ∨ recordSize < waiting then ({ p with records := [], deaf := true }, [])
    else ({ p with records := [] }, (last :: earlier).reverse.flatten)

def cutMessage : String :=
  "peer closed connection without sending TLS close_notify: https:" ++
    "//docs.rs/rustls/latest/rustls/manual/_03_howto/index.html#unexpected-eof"

def read (p : Peer) (secure : Bool) : Peer × Option Answer :=
  match p.inbound with
  | byte :: rest =>
    let bytes := byte :: rest.take (LineBuffer.chunkSize - 1)
    have bounded : bytes.length ≤ LineBuffer.chunkSize := by
      simp only [bytes, List.length_cons, List.length_take, LineBuffer.chunkSize]
      omega
    ({ p with inbound := rest.drop (LineBuffer.chunkSize - 1) },
      some (.received ⟨bytes, List.cons_ne_nil _ _, bounded⟩))
  | [] =>
    match p.readError, p.ending with
    | some message, _ => (p, some (.readFailed message))
    | none, some .cut => (p, some (if secure then .readFailed cutMessage else .ended))
    | none, some .orderly => (p, some .ended)
    | none, none => (p, none)

def provenName : String := "localhost"

/-- A name that the far end can prove, in any letter case and with a point at its end or not. -/
def proves : ServerName → Bool
  | .ip _ => false
  | .dns name _ =>
    let name := name.toList.map Char.toLower
    name == provenName.toList || name == provenName.toList ++ ['.']

def mismatchMessage (name : ServerName) : String :=
  "invalid peer certificate: certificate not valid for name \"" ++ name.text ++
    "\"; certificate is only valid for DnsName(\"" ++ provenName ++ "\")"

def greet (p : Peer) : Peer :=
  let rest := helloSize - p.hello
  let count := p.room.elim rest (min rest)
  { p with hello := p.hello + count, room := p.room.map fun room => room - count }

/-- The client goes on with a handshake that has begun. Bytes that are no part of one spoil it. -/
def shake (p : Peer) (name : ServerName) (anyName : Bool) : Peer × Option Answer :=
  if 3 ≤ p.inbound.length ∨ (p.inbound ≠ [] ∧ p.security ≠ .plain) then
    (p, some (.handshakeFailed "received corrupt message of type InvalidContentType"))
  else if p.security ≠ .plain then
    if ¬ anyName ∧ ¬ proves name then (p, some (.handshakeFailed (mismatchMessage name)))
    else
      match p.writeError with
      | some message => (p, some (.handshakeFailed message))
      | none => ({ p with security := .established }, some .secured)
  else
    match p.readError, p.ending with
    | some message, _ => (p, some (.handshakeFailed message))
    | none, some _ => (p, some (.handshakeFailed "tls handshake eof"))
    | none, none => (p, none)

def negotiate (p : Peer) (name : ServerName) (anyName : Bool) : Peer × Option Answer :=
  if p.hello = helloSize then p.shake name anyName
  else
    match p.writeError with
    | some message => (p, some (.handshakeFailed message))
    | none => if p.greet.hello = helloSize then p.greet.shake name anyName else (p.greet, none)

/-- It holds the beginning of a handshake and does not take part in it. -/
def holdsHello (p : Peer) : Bool :=
  0 < p.hello && p.security == .plain

end Peer

end FtpControl.Script

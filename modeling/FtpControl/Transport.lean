import FtpControl.ServerName
import FtpControl.Transport.LineBuffer
import FtpControl.Transport.Notice

namespace FtpControl

inductive Operation where
  | resolve
  | connect
  | handshake
  | writeLine (text : String)
  | readLine
  deriving DecidableEq, Repr

/-- A stream: the connection that carries it, and whether it is encrypted. -/
structure Stream where
  connection : Nat
  secure : Bool
  deriving DecidableEq, Repr

/-- What is known beforehand of the certificates that can be trusted. -/
structure Trust where
  /-- Any certificate is as good as another. -/
  acceptInvalidCerts : Bool := false
  /-- There are certificates to check others against. -/
  hasRoots : Bool := false
  deriving DecidableEq, Repr

/-- What an operation waits for. -/
inductive Wait where
  | lookup (host : String) (port : UInt16)
  | dial (endpoint : Endpoint)
  | negotiate (connection : Nat) (name : ServerName)
  | transmit (stream : Stream) (rest : List UInt8)
  | receive (stream : Stream)
  deriving DecidableEq, Repr

/-- The waits that a watchdog ends. A line may take any time, and so may a handshake. -/
def Wait.guarded : Wait → Bool
  | .lookup _ _ | .dial _ | .transmit _ _ => true
  | .negotiate _ _ | .receive _ => false

def Wait.unsent : Wait → Nat
  | .transmit _ rest => rest.length
  | _ => 0

/-- How a wait ends. -/
inductive Answer where
  | found (endpoints : List Endpoint)
  | lookupFailed (message : String)
  | accepted (connection : Nat)
  | refused (message : String)
  | secured
  | handshakeFailed (message : String)
  /-- So many bytes went out. -/
  | took (count : Nat)
  | writeFailed (message : String)
  | received (chunk : LineBuffer.Chunk)
  | ended
  | readFailed (message : String)
  /-- The watchdog's time is over. -/
  | expired
  deriving DecidableEq, Inhabited, Repr

inductive Progress where
  /-- To its end, with something to tell or not. -/
  | done (notice : Option Notice)
  | blocked (wait : Wait)
  deriving DecidableEq, Repr

/-- A control connection. -/
structure Transport where
  trust : Trust
  host : String := ""
  port : UInt16 := 0
  family : Address.Family := .ipv4
  stream : Option Stream := none
  /-- The stream, or the last one if there is none, is encrypted. -/
  encrypted : Bool := false
  /-- The addresses that are still to be tried. -/
  candidates : List Endpoint := []
  queue : List Operation := []
  /-- The bytes received and not yet handed out. -/
  buffer : List UInt8 := []
  deriving DecidableEq, Repr

namespace Transport

def isOpen (t : Transport) : Bool :=
  t.stream.isSome

def hasPending (t : Transport) : Bool :=
  !t.queue.isEmpty

def push (t : Transport) (op : Operation) : Transport :=
  { t with queue := t.queue ++ [op] }

def pushFront (t : Transport) (op : Operation) : Transport :=
  { t with queue := op :: t.queue }

def disconnect (t : Transport) : Transport :=
  { t with stream := none, queue := [], candidates := [], buffer := [] }

def connect (t : Transport) (host : String) (port : UInt16) (family : Address.Family) : Transport :=
  { t.disconnect with host, port, family, encrypted := false, queue := [.resolve] }

def notOpen : Failure :=
  .state "Socket is not open."

def alreadyEncrypted : Failure :=
  .state "Control stream is already encrypted."

def request (t : Transport) (op : Operation) : Except Failure Transport :=
  if t.isOpen then .ok (t.push op) else .error notOpen

def requestHandshake (t : Transport) : Except Failure Transport :=
  if t.isOpen ∧ t.encrypted then .error alreadyEncrypted else t.request .handshake

def next? (t : Transport) : Option (Operation × Transport) :=
  match t.queue with
  | [] => none
  | op :: queue => some (op, { t with queue })

/-- Ends the connection and tells why. -/
def fatal (t : Transport) (message : String) : Transport × Progress :=
  (t.disconnect, .done (some (.error message true)))

/-- Ends the connection because an operation took too long. -/
def timedOut (t : Transport) : Transport × Progress :=
  t.fatal "Control stream timed out."

def finish (t : Transport) (notice : Notice) : Transport × Progress :=
  (t, .done (some notice))

/-- Goes on with the addresses of a host. Those of the other family are left out. -/
def resolved (t : Transport) (endpoints : List Endpoint) : Transport × Progress :=
  let candidates := endpoints.filter fun e => e.address.family == t.family
  if candidates.isEmpty then
    t.fatal ("No " ++ t.family.name ++ " address found for " ++ t.host ++ ".")
  else ({ t with candidates }.pushFront .connect, .done none)

def dialNext (t : Transport) : Transport × Progress :=
  match t.candidates with
  | [] => t.fatal "Connection failed."
  | endpoint :: candidates => ({ t with candidates }, .blocked (.dial endpoint))

/-- Goes on from an address that failed to the next, if there is one. -/
def failOver (t : Transport) (endpoint : Endpoint) (message : String) : Transport × Progress :=
  let exhausted := t.candidates.isEmpty
  let t := if exhausted then t else t.pushFront .connect
  t.finish (.endpointFailed (endpoint.text ++ ": " ++ message) exhausted)

/-- Begins a handshake. The stream is out of use until it has succeeded. -/
def beginHandshake (t : Transport) : Transport × Progress :=
  match t.stream with
  | none => t.fatal notOpen.message
  | some stream =>
    if stream.secure then t.fatal alreadyEncrypted.message
    else
      let t := { t with stream := none }
      if ¬ t.trust.hasRoots ∧ ¬ t.trust.acceptInvalidCerts then
        t.fatal "No trusted root certificates available."
      else
        match ServerName.ofHost t.host with
        | .error failure => t.fatal failure.message
        | .ok name => (t, .blocked (.negotiate stream.connection name))

def beginWrite (t : Transport) (text : String) : Transport × Progress :=
  match t.stream with
  | none => t.fatal notOpen.message
  | some stream => (t, .blocked (.transmit stream (LineBuffer.encode text)))

/-- Hands out the first line of the buffer, or asks the stream for more. -/
def readOn (t : Transport) : Transport × Progress :=
  match LineBuffer.takeLine? t.buffer with
  | some (text, buffer) => { t with buffer }.finish (.line text)
  | none =>
    if LineBuffer.maxLine < t.buffer.length then
      t.fatal ("Line exceeds " ++ toString LineBuffer.maxLine ++ " bytes.")
    else
      match t.stream with
      | none => t.fatal notOpen.message
      | some stream => (t, .blocked (.receive stream))

def begin (t : Transport) : Operation → Transport × Progress
  | .resolve => (t, .blocked (.lookup t.host t.port))
  | .connect => t.dialNext
  | .handshake => t.beginHandshake
  | .writeLine text => t.beginWrite text
  | .readLine => t.readOn

/-- Goes on with an operation; an answer that does not belong to its wait is none. -/
def resume (t : Transport) : Wait → Answer → Option (Transport × Progress)
  | .lookup _ _, .found endpoints => some (t.resolved endpoints)
  | .lookup _ _, .lookupFailed message => some (t.fatal message)
  | .dial _, .accepted connection =>
    some ({ t with stream := some ⟨connection, false⟩, candidates := [] }.finish .connected)
  | .dial endpoint, .refused message => some (t.failOver endpoint message)
  | .negotiate connection _, .secured =>
    some ({ t with stream := some ⟨connection, true⟩, encrypted := true }.finish .handshakeDone)
  | .negotiate _ _, .handshakeFailed message => some (t.fatal ("TLS handshake failed: " ++ message))
  | .transmit stream rest, .took count =>
    let rest := rest.drop count
    if rest.isEmpty then some (t.finish .written) else some (t, .blocked (.transmit stream rest))
  | .transmit _ _, .writeFailed message => some (t.fatal message)
  | .receive _, .received chunk => some { t with buffer := t.buffer ++ chunk.bytes }.readOn
  | .receive _, .ended => some (t.fatal "Connection closed by server.")
  | .receive _, .readFailed message => some (t.fatal message)
  | wait, .expired => if wait.guarded then some t.timedOut else none
  | _, _ => none

/-- The connections in use, be it for a stream or for a handshake that waits. -/
def inUse (t : Transport) (wait : Option Wait) : List Nat :=
  t.stream.toList.map Stream.connection ++
    match wait with
    | some (.negotiate connection _) => [connection]
    | _ => []

end Transport

end FtpControl

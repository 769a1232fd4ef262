import FtpControl.Console
import FtpControl.Session.Runner
import Std.Async.DNS
import Std.Async.TCP
import Std.Async.Timer
import Std.Time

namespace FtpControl.Console

open Std.Async

/-- The connection in use, and the number that the session knows it by. -/
structure Wire where
  client : Option TCP.Socket.Client := none
  count : Nat := 0

def socketAddress (e : Endpoint) : Std.Net.SocketAddress :=
  match e.address with
  | .v4 octets => .v4 ⟨⟨octets⟩, e.port⟩
  | .v6 groups => .v6 ⟨⟨groups⟩, e.port⟩

def endpointOf (port : UInt16) : Std.Net.IPAddr → Endpoint
  | .v4 address => ⟨.v4 address.octets, port⟩
  | .v6 address => ⟨.v6 address.segments, port⟩

def lookup (host : String) (port : UInt16) : Async Answer := do
  try
    let found ← DNS.getAddrInfo host (toString port)
    return .found (found.toList.eraseDups.map (endpointOf port))
  catch e => return .lookupFailed ("Could not resolve " ++ host ++ ": " ++ toString e)

def dial (wire : IO.Ref Wire) (e : Endpoint) : Async Answer := do
  try
    let client ← TCP.Socket.Client.mk
    client.connect (socketAddress e)
    let connection := (← wire.get).count
    wire.set { client := some client, count := connection + 1 }
    return .accepted connection
  catch e => return .refused (toString e)

def transmit (wire : IO.Ref Wire) (bytes : List UInt8) : Async Answer := do
  match (← wire.get).client with
  | none => return .writeFailed Transport.notOpen.message
  | some client =>
    try
      client.send ⟨bytes.toArray⟩
      return .took bytes.length
    catch e => return .writeFailed (toString e)

def receivedBytes (bytes : List UInt8) : Answer :=
  let bytes := bytes.take LineBuffer.chunkSize
  if h : bytes ≠ [] then
    .received ⟨bytes, h, by
      simp only [bytes, List.length_take]
      omega⟩
  else .ended

def receive (wire : IO.Ref Wire) : Async Answer := do
  match (← wire.get).client with
  | none => return .ended
  | some client =>
    try
      let bytes ← client.recv? (UInt64.ofNat LineBuffer.chunkSize)
      return receivedBytes ((bytes.map fun b => b.toList).getD [])
    catch e => return .readFailed (toString e)

def answer (wire : IO.Ref Wire) : Wait → Async Answer
  | .lookup host port => lookup host port
  | .dial endpoint => dial wire endpoint
  | .negotiate _ _ => return .handshakeFailed "encryption is not available"
  | .transmit _ rest => transmit wire rest
  | .receive _ => receive wire

/-- Answers a wait under the watchdog. A period of more than a month is as good as none. -/
def answerInTime (wire : IO.Ref Wire) (timeout : UInt64) (wait : Wait) : Async Answer :=
  if wait.guarded ∧ timeout.toNat < 3000000 then
    Async.race (answer wire wait) do
      sleep (.ofNat (timeout.toNat * 1000))
      return .expired
  else answer wire wait

def printEvents (json : Bool) (events : List Event) : IO Unit := do
  for event in events do
    for line in lines json event do
      IO.println line
  (← IO.getStdout).flush

partial def follow (today : Date) (json : Bool) (wire : IO.Ref Wire) (w : Watch) (r : Runner) :
    IO Status := do
  let (events, status) := w.follow r.session.news
  printEvents json events
  match status with
  | some status => return status
  | none =>
    let w := events.foldl Watch.after w
    let r := { r with session := { r.session with news := [] } }
    let input ← match r.phase with
      | .waiting wait _ => do
        pure (Runner.Input.answer (← (answerInTime wire r.session.profile.timeout wait).block))
      | _ => pure .proceed
    match r.step? today input with
    | some r => follow today json wire w r
    | none => return .failure

/-- The date of today, or a fixed one where the clock has none. -/
def currentDate : IO Date := do
  try
    let d ← Std.Time.PlainDate.now
    return (Date.ofNumbers? d.year d.month.val.toNat d.day.val.toNat).getD ⟨1970, 1, 1, by decide⟩
  catch _ => return ⟨1970, 1, 1, by decide⟩

def fileText (path : String) : IO (Except Profile.FileFault (List Char)) := do
  try
    let bytes ← IO.FS.readBinFile path
    match Utf8.decode? bytes.toList with
    | some text => return .ok text
    | none => return .error .notText
  catch
    | .noFileOrDirectory _ _ _ => return .error .notFound
    | e => return .error (.other (toString e))

def runProgram (options : Options) : IO Status := do
  match Profile.ofFile options.config (← fileText options.config) with
  | .error failure =>
    IO.eprintln failure.text
    return .failure
  | .ok saved =>
    let profile := options.adapt saved
    let session := (Session.create profile false).handle .connect
    let wire ← IO.mkRef {}
    follow (← currentDate) options.json wire (Watch.ofProfile profile) { session }

end FtpControl.Console

/-- Logs in with a saved connection and lists a directory. There is no encryption here: a connection saved
with `authTls` ends at its handshake. -/
def main (args : List String) : IO UInt32 := do
  match FtpControl.Console.Options.ofArgs? args with
  | none =>
    IO.eprintln "usage: ftpcontrol [--cd PATH] [--no-list] [--json] CONFIG"
    return FtpControl.Console.Status.usage.code.toUInt32
  | some options => return (← FtpControl.Console.runProgram options).code.toUInt32

import FtpControl.Command
import FtpControl.Listing.Batch
import FtpControl.Profile
import FtpControl.Reply
import FtpControl.Session.Event
import FtpControl.Session.Request
import FtpControl.Session.Stage
import FtpControl.Transport

namespace FtpControl

/-- A session with its owner. Each stage waits for one reply, and the reply decides what is sent next:

    welcome, AUTH TLS, handshake, PBSZ 0, USER, PASS    login
    CWD, PWD                                            change of directory
    STAT -l                                             listing -/
structure Session where
  profile : Profile
  stage : Stage := .notConnected
  /-- A connection was asked for and does not stand yet. -/
  connecting : Bool := false
  transport : Transport
  /-- The lines of the listing that is being received. -/
  listing : Array String := #[]
  /-- Navigation that has been put off. -/
  deferred : List Request := []
  /-- The events that the owner has not seen yet. -/
  news : List Event := []

namespace Session

def create (profile : Profile) (hasRoots : Bool) : Session where
  profile
  transport := { trust := { acceptInvalidCerts := profile.acceptInvalidCerts, hasRoots } }

def emit (s : Session) (event : Event) : Session :=
  { s with news := s.news ++ [event] }

def log (s : Session) (line : String) : Session :=
  s.emit (.log line)

def enter (s : Session) (stage : Stage) : Session :=
  { s with stage }

/-- Closes the connection and forgets everything that was under way. -/
def reset (s : Session) : Session :=
  { s with
    transport := s.transport.disconnect
    stage := .notConnected
    connecting := false
    listing := #[]
    deferred := [] }

def fail (s : Session) (message : String) : Session :=
  s.reset.emit (.fatal message)

/-- Makes requests to the transport; a refusal ends the connection. -/
def withTransport (s : Session) (request : Transport → Except Failure Transport) : Session :=
  match request s.transport with
  | .ok transport => { s with transport }
  | .error failure => s.fail failure.message

/-- Sends a command and asks for the first line of its reply. -/
def send (s : Session) (command : Command) : Session :=
  (s.log (">>> " ++ command.shown)).withTransport fun t => do
    (← t.request (.writeLine command.line)).request .readLine

def readNext (s : Session) : Session :=
  s.withTransport fun t => t.request .readLine

def sendUser (s : Session) : Session :=
  match Command.userNamed s.profile.username with
  | .ok command => (s.send command).enter .awaitingUser
  | .error failure => s.fail failure.message

def sendPassword (s : Session) : Session :=
  match Command.passWith s.profile.password with
  | .ok command => (s.send command).enter .awaitingPass
  | .error failure => s.fail failure.message

/-- The login is done; what the profile asks for comes before anything put off. -/
def loggedIn (s : Session) : Session :=
  let s := (s.enter .loggedIn).emit .idle
  let listing := if s.profile.listAfterLogin then [Request.listDirectory] else []
  let directory := s.profile.initialDirectory.toList.map Request.changeDirectory
  { s with deferred := directory ++ listing ++ s.deferred }

/-- Asks for a change of directory. A path that cannot be sent is refused. -/
def beginChangeDirectory (s : Session) (path : String) : Session :=
  match Command.changeTo path with
  | .ok command => (s.send command).enter .awaitingCwd
  | .error failure => s.emit (.error failure.message)

def beginListing (s : Session) : Session :=
  ({ s with listing := #[] }.send .statList).enter .awaitingStat

def beginConnect (s : Session) : Session :=
  let s := s.log "Connecting..."
  { s with
    stage := .notConnected
    listing := #[]
    connecting := true
    transport := s.transport.connect s.profile.host s.profile.port s.profile.family }

/-- Begins navigation, puts it off while something is under way, or refuses it. -/
def navigate (s : Session) (request : Request) (start : Session → Session) : Session :=
  if s.stage = .loggedIn then start s
  else if s.stage.isAwaiting ∨ s.connecting then { s with deferred := s.deferred ++ [request] }
  else s.emit (.error "Not logged in.")

def handle (s : Session) (request : Request) : Session :=
  match request with
  | .connect => s.beginConnect
  | .disconnect => s.reset
  | .changeDirectory path => s.navigate request fun s => s.beginChangeDirectory path
  | .listDirectory => s.navigate request beginListing

/-- What a line is as a part of a reply. -/
inductive Verdict where
  /-- No reply at all. -/
  | invalid
  /-- The reply goes on. -/
  | continued
  /-- The command failed, for this reason. -/
  | refused (message : String)
  /-- The command succeeded with this code. -/
  | accepted (code : UInt16)
  deriving DecidableEq, Repr

def judge (line : String) : Verdict :=
  match Reply.ofLine? line.toList with
  | none => .invalid
  | some reply =>
    if ¬ reply.last then .continued
    else if reply.negative then .refused line
    else
      match reply.code with
      | .ok code => .accepted code
      | .error failure => .refused failure.message

/-- Handles a line of a reply: the end of a good one goes on with `next`. -/
def accept (s : Session) (line : String) (next : Session → UInt16 → Session) : Session :=
  let s := s.log line
  match judge line with
  | .invalid => s.fail "Invalid reply received."
  | .continued => s.readNext
  | .refused message => s.fail message
  | .accepted code => next s code

def afterWelcome (s : Session) : Session :=
  if s.profile.authTls then (s.send .authTls).enter .awaitingAuthTls else s.sendUser

def afterAuthTls (s : Session) : Session :=
  match s.transport.requestHandshake with
  | .ok transport => { s with transport }.enter .awaitingHandshake
  | .error failure => s.fail failure.message

/-- The code that tells that no password is needed. -/
def noPasswordNeeded : UInt16 := 230

def afterUser (s : Session) (code : UInt16) : Session :=
  if code = noPasswordNeeded then s.loggedIn else s.sendPassword

/-- The directory has changed; the server is asked for its name. -/
def afterCwd (s : Session) : Session :=
  (s.send .pwd).enter .awaitingPwd

def afterPwd (s : Session) (line : String) : Session :=
  match Reply.ofLine line.toList >>= Reply.quotedPath with
  | .ok path => (s.enter .loggedIn).emit (.directory (String.ofList path))
  | .error failure => s.fail failure.message

def afterStat (today : Date) (s : Session) : Session :=
  let lines := s.listing.toList
  let s := { s with listing := #[] }.enter .loggedIn
  match Listing.read today s.profile.strictListing lines with
  | .ok entries => s.emit (.listing entries)
  | .error failure => (s.log failure.message).emit (.error failure.message)

/-- Handles a line while a listing is received: whatever is no reply belongs to the listing. -/
def handleStat (today : Date) (s : Session) (line : String) : Session :=
  if judge line = .invalid then
    let s := if s.listing.isEmpty then s.log "(directory list was here)" else s
    { s with listing := s.listing.push line }.readNext
  else s.accept line fun s _ => s.afterStat today

def handleUnexpected (s : Session) (line : String) : Session :=
  let s := s.log line
  if judge line = .invalid then s.emit (.error "Invalid reply received.") else s

def handleLine (today : Date) (s : Session) (line : String) : Session :=
  match s.stage with
  | .awaitingWelcome => s.accept line fun s _ => s.afterWelcome
  | .awaitingAuthTls => s.accept line fun s _ => s.afterAuthTls
  | .awaitingPbsz => s.accept line fun s _ => s.sendUser
  | .awaitingUser => s.accept line afterUser
  | .awaitingPass => s.accept line fun s _ => s.loggedIn
  | .awaitingCwd => s.accept line fun s _ => s.afterCwd
  | .awaitingPwd => s.accept line fun s _ => s.afterPwd line
  | .awaitingStat => s.handleStat today line
  | .notConnected | .loggedIn | .awaitingHandshake => s.handleUnexpected line

def call (today : Date) (s : Session) : Notice.Call → Session
  | .connected =>
    (({ s with connecting := false }.log "Connected.").emit .connected
      |>.enter .awaitingWelcome).readNext
  | .handshakeDone => ((s.log "TLS handshake complete.").send .pbszZero).enter .awaitingPbsz
  | .line text => s.handleLine today text
  | .transportError message fatal =>
    let logged := "Connection error: " ++ message
    let s := s.log logged
    if fatal then s.fail message else s.emit (.error logged)

def notice (today : Date) (s : Session) (outcome : Notice) : Session :=
  outcome.calls.foldl (call today) s

end Session

end FtpControl

import FtpControl.Session

namespace FtpControl

/-- A way to show a session that makes no difference to what the session handles. -/
structure Session.Guise where
  past : List Event
  password : String → String
  transport : Transport → Transport
  isOpen : ∀ t, (transport t).isOpen = t.isOpen
  encrypted : ∀ t, (transport t).encrypted = t.encrypted
  disconnect : ∀ t, transport t.disconnect = (transport t).disconnect
  connect : ∀ t host port family,
    transport (t.connect host port family) = (transport t).connect host port family
  push : ∀ t op, transport (t.push op) = (transport t).push op

def Session.AsksPassword (s : Session) (outcome : Notice) : Prop :=
  s.stage = .awaitingUser ∧ ∃ line code, outcome = .line line ∧ judge line = .accepted code ∧
    code ≠ noPasswordNeeded

namespace Session.Guise

variable (g : Guise) (s : Session)

/-- The session in this guise. -/
def session : Session :=
  { s with
    profile := { s.profile with password := g.password s.profile.password }
    transport := g.transport s.transport
    news := g.past ++ s.news }

@[simp] theorem session_stage : (g.session s).stage = s.stage := rfl

@[simp] theorem session_connecting : (g.session s).connecting = s.connecting := rfl

@[simp] theorem session_transport : (g.session s).transport = g.transport s.transport := rfl

@[simp] theorem session_listing : (g.session s).listing = s.listing := rfl

@[simp] theorem session_deferred : (g.session s).deferred = s.deferred := rfl

theorem session_emit (event : Event) : g.session (s.emit event) = (g.session s).emit event := by
  simp [session, emit]

theorem session_log (line : String) : g.session (s.log line) = (g.session s).log line :=
  g.session_emit s _

theorem session_enter (stage : Stage) : g.session (s.enter stage) = (g.session s).enter stage := rfl

theorem session_reset : g.session s.reset = (g.session s).reset := by
  simp [session, reset, g.disconnect]

theorem session_fail (message : String) : g.session (s.fail message) = (g.session s).fail message := by
  rw [fail, session_emit, session_reset, fail]

theorem session_beginConnect : g.session s.beginConnect = (g.session s).beginConnect := by
  simp [session, beginConnect, log, emit, g.connect]

variable {s}

/-- What the transport grants it grants in every guise, and it refuses the same. -/
theorem session_withTransport {request other : Transport → Except Failure Transport}
    (h : other (g.transport s.transport) = (request s.transport).map g.transport) :
    g.session (s.withTransport request) = (g.session s).withTransport other := by
  unfold withTransport
  rw [session_transport, h]
  cases request s.transport with
  | ok t => rfl
  | error failure => exact g.session_fail s failure.message

theorem session_request (t : Transport) (op : Operation) :
    (g.transport t).request op = (t.request op).map g.transport := by
  unfold Transport.request
  rw [g.isOpen]
  split
  next => rw [Except.map, g.push]
  next => rfl

theorem session_readNext : g.session s.readNext = (g.session s).readNext :=
  g.session_withTransport (g.session_request s.transport .readLine)

theorem session_send (command : Command) : g.session (s.send command) = (g.session s).send command := by
  unfold send
  rw [← session_log]
  refine g.session_withTransport ?_
  rw [g.session_request]
  cases (s.log (">>> " ++ command.shown)).transport.request (.writeLine command.line) with
  | ok t => exact g.session_request t .readLine
  | error failure => rfl

theorem session_sendUser : g.session s.sendUser = (g.session s).sendUser := by
  have hname : (g.session s).profile.username = s.profile.username := rfl
  unfold sendUser
  rw [hname]
  cases Command.userNamed s.profile.username with
  | ok command => exact congrArg (fun t => t.enter .awaitingUser) (g.session_send command)
  | error failure => exact g.session_fail s failure.message

theorem session_sendPassword (h : g.password s.profile.password = s.profile.password) :
    g.session s.sendPassword = (g.session s).sendPassword := by
  have hsecret : (g.session s).profile.password = s.profile.password := h
  unfold sendPassword
  rw [hsecret]
  cases Command.passWith s.profile.password with
  | ok command => exact congrArg (fun t => t.enter .awaitingPass) (g.session_send command)
  | error failure => exact g.session_fail s failure.message

theorem session_loggedIn : g.session s.loggedIn = (g.session s).loggedIn := by
  unfold loggedIn
  dsimp only
  rw [← session_enter, ← session_emit]
  rfl

theorem session_afterWelcome : g.session s.afterWelcome = (g.session s).afterWelcome := by
  change g.session s.afterWelcome = if s.profile.authTls then
    ((g.session s).send .authTls).enter .awaitingAuthTls else (g.session s).sendUser
  unfold afterWelcome
  split
  next => rw [session_enter, session_send]
  next => exact g.session_sendUser

theorem session_afterAuthTls : g.session s.afterAuthTls = (g.session s).afterAuthTls := by
  have hrequest : (g.session s).transport.requestHandshake =
      s.transport.requestHandshake.map g.transport := by
    unfold Transport.requestHandshake
    rw [session_transport, g.isOpen, g.encrypted]
    split
    next => rfl
    next => exact g.session_request s.transport .handshake
  unfold afterAuthTls
  rw [hrequest]
  cases s.transport.requestHandshake with
  | ok t => rfl
  | error failure => exact g.session_fail s failure.message

theorem session_afterUser (code : UInt16)
    (h : code ≠ noPasswordNeeded → g.password s.profile.password = s.profile.password) :
    g.session (s.afterUser code) = (g.session s).afterUser code := by
  unfold afterUser
  split
  next => exact g.session_loggedIn
  next hc => exact g.session_sendPassword (h hc)

theorem session_afterCwd : g.session s.afterCwd = (g.session s).afterCwd := by
  rw [afterCwd, session_enter, session_send, afterCwd]

theorem session_afterPwd (line : String) :
    g.session (s.afterPwd line) = (g.session s).afterPwd line := by
  unfold afterPwd
  split
  next path _ => rw [session_emit, session_enter]
  next failure _ => exact g.session_fail s failure.message

theorem session_afterStat (today : Date) :
    g.session (s.afterStat today) = (g.session s).afterStat today := by
  have hready : ({ g.session s with listing := #[] } : Session).enter .loggedIn =
      g.session (({ s with listing := #[] } : Session).enter .loggedIn) := rfl
  unfold afterStat
  dsimp only
  rw [hready]
  generalize ({ s with listing := #[] } : Session).enter .loggedIn = ready
  have hread : Listing.read today (g.session ready).profile.strictListing (g.session s).listing.toList =
      Listing.read today ready.profile.strictListing s.listing.toList := rfl
  rw [hread]
  cases Listing.read today ready.profile.strictListing s.listing.toList with
  | ok entries => rw [session_emit]
  | error failure => rw [session_emit, session_log]

theorem session_accept {line : String} {next : Session → UInt16 → Session}
    (h : ∀ code, judge line = .accepted code →
      g.session (next (s.log line) code) = next (g.session (s.log line)) code) :
    g.session (s.accept line next) = (g.session s).accept line next := by
  unfold accept
  dsimp only
  rw [← session_log]
  cases hj : judge line with
  | invalid => exact g.session_fail _ _
  | continued => exact g.session_readNext
  | refused message => exact g.session_fail _ message
  | accepted code => exact h code hj

theorem session_handleStat (today : Date) (line : String) :
    g.session (s.handleStat today line) = (g.session s).handleStat today line := by
  unfold handleStat
  split
  next =>
    dsimp only
    rw [session_readNext, session_listing]
    split
    next =>
      rw [← session_log]
      rfl
    next => rfl
  next => exact g.session_accept fun _ _ => g.session_afterStat today

theorem session_handleUnexpected (line : String) :
    g.session (s.handleUnexpected line) = (g.session s).handleUnexpected line := by
  unfold handleUnexpected
  dsimp only
  split
  next => rw [session_emit, session_log]
  next => exact g.session_log s line

/-- A line is handled alike unless it makes the session send its password. -/
theorem session_handleLine (today : Date) (line : String)
    (h : s.AsksPassword (.line line) → g.password s.profile.password = s.profile.password) :
    g.session (s.handleLine today line) = (g.session s).handleLine today line := by
  unfold handleLine
  rw [session_stage]
  cases hs : s.stage with
  | notConnected | loggedIn | awaitingHandshake => exact g.session_handleUnexpected line
  | awaitingWelcome => exact g.session_accept fun _ _ => g.session_afterWelcome
  | awaitingAuthTls => exact g.session_accept fun _ _ => g.session_afterAuthTls
  | awaitingPbsz => exact g.session_accept fun _ _ => g.session_sendUser
  | awaitingUser =>
    refine g.session_accept fun code hj => g.session_afterUser code fun hc => ?_
    exact h ⟨hs, line, code, rfl, hj, hc⟩
  | awaitingPass => exact g.session_accept fun _ _ => g.session_loggedIn
  | awaitingCwd => exact g.session_accept fun _ _ => g.session_afterCwd
  | awaitingPwd => exact g.session_accept fun _ _ => g.session_afterPwd line
  | awaitingStat => exact g.session_handleStat today line

theorem session_call (today : Date) (call : Notice.Call) (h : ∀ line, call = .line line →
      s.AsksPassword (.line line) → g.password s.profile.password = s.profile.password) :
    g.session (s.call today call) = (g.session s).call today call := by
  cases call with
  | connected =>
    change g.session ((((Session.log { s with connecting := false } "Connected.").emit
      .connected).enter .awaitingWelcome).readNext) = _
    rw [session_readNext, session_enter, session_emit, session_log]
    rfl
  | handshakeDone =>
    change g.session (((s.log "TLS handshake complete.").send .pbszZero).enter .awaitingPbsz) = _
    rw [session_enter, session_send, session_log]
    rfl
  | line text => exact g.session_handleLine today text (h text rfl)
  | transportError message fatal =>
    cases fatal with
    | false =>
      change g.session ((s.log _).emit _) = ((g.session s).log _).emit _
      rw [session_emit, session_log]
    | true =>
      change g.session ((s.log _).fail _) = ((g.session s).log _).fail _
      rw [session_fail, session_log]

theorem session_notice (today : Date) (outcome : Notice)
    (h : s.AsksPassword outcome → g.password s.profile.password = s.profile.password) :
    g.session (s.notice today outcome) = (g.session s).notice today outcome := by
  have quiet : ∀ calls : List Notice.Call, (∀ call ∈ calls, ∀ line, call ≠ .line line) →
      ∀ s, g.session (calls.foldl (call today) s) = calls.foldl (call today) (g.session s) := by
    intro calls hn
    induction calls with
    | nil => exact fun _ => rfl
    | cons call calls ih =>
      intro s
      have hcall := g.session_call (s := s) today call fun line hl =>
        absurd hl (hn call List.mem_cons_self line)
      rw [List.foldl_cons, ih fun other ho => hn other (List.mem_cons_of_mem _ ho), hcall,
        List.foldl_cons]
  cases outcome with
  | line text => exact g.session_handleLine today text h
  | endpointFailed message exhausted =>
    refine quiet _ ?_ s
    cases exhausted <;> simp [Notice.calls]
  | _ => exact quiet _ (by simp [Notice.calls]) s

theorem session_navigate {request : Request} {start : Session → Session}
    (h : g.session (start s) = start (g.session s)) :
    g.session (s.navigate request start) = (g.session s).navigate request start := by
  unfold navigate
  rw [session_stage, session_connecting]
  split
  next => exact h
  next =>
    split
    next => rfl
    next => exact g.session_emit s _

/-- A request is handled alike in every guise. -/
theorem session_handle (request : Request) :
    g.session (s.handle request) = (g.session s).handle request := by
  cases request with
  | connect => exact g.session_beginConnect s
  | disconnect => exact g.session_reset s
  | changeDirectory path =>
    refine g.session_navigate ?_
    unfold beginChangeDirectory
    split
    next command _ => rw [session_enter, session_send]
    next failure _ => exact g.session_emit s _
  | listDirectory =>
    refine g.session_navigate ?_
    unfold beginListing
    rw [session_enter, session_send]
    rfl

end Session.Guise

end FtpControl

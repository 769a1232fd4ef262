import FtpControl.Proofs.Wire

namespace FtpControl

/-- The transport uses the stream of a connection and holds the bytes received on it. -/
structure Transport.Carries (t : Transport) (link : Link) : Prop where
  stream : t.stream = some link.stream
  encrypted : t.encrypted = link.stream.secure
  candidates : t.candidates = []
  buffer : t.buffer = link.unread

structure Transport.Vacant (t : Transport) : Prop where
  stream : t.stream = none
  buffer : t.buffer = []

namespace Session

/-- What holds of a session in whatever it does. -/
structure Tidy (p : Profile) (s : Session) : Prop where
  profile : s.profile = p
  deferred : ∀ request ∈ s.deferred, request.interrupts = false
  listing : s.listing ≠ #[] → s.stage = .awaitingStat

/-- The session has no connection and wants none. -/
structure Closed (s : Session) : Prop where
  stage : s.stage = .notConnected
  connecting : s.connecting = false
  deferred : s.deferred = []
  candidates : s.transport.candidates = []
  vacant : s.transport.Vacant

/-- The session waits for a connection. -/
structure Dialling (s : Session) : Prop where
  stage : s.stage = .notConnected
  connecting : s.connecting = true
  encrypted : s.transport.encrypted = false
  vacant : s.transport.Vacant

structure Uses (s : Session) (link : Link) : Prop where
  connecting : s.connecting = false
  carries : s.transport.Carries link
  unsent : link.unsent = []

/-- The operations that a session still has before it, by the state of the connection. -/
inductive Rests (s : Session) : Wire → List Operation → Prop
  | closed (w : Wire) : s.Closed → Rests s w []
  | resolving (w : Wire) : s.Dialling → s.transport.candidates = [] → Rests s w [.resolve]
  | dialling (w : Wire) : s.Dialling → s.transport.candidates ≠ [] → Rests s w [.connect]
  | shaking {link : Link} : s.Uses link → s.stage = .awaitingHandshake →
      link.standing = .granted .awaitingAuthTls → Rests s (.live link) [.handshake]
  | sending {link : Link} {command : Command} : s.Uses link →
      Permits s.profile link.standing command s.stage →
      Rests s (.live link) [.writeLine command.line, .readLine]
  | reading {link : Link} : s.Uses link → link.standing = .due s.stage →
      Rests s (.live link) [.readLine]
  | ready {link : Link} : s.Uses link → s.stage = .loggedIn → link.standing = .ready →
      Rests s (.live link) []

structure Reads (s : Session) (link : Link) (watch : Bool) : Prop where
  uses : s.Uses link
  queue : s.transport.queue = []
  due : watch = false → link.standing = .due s.stage
  idle : watch = true → s.stage = .loggedIn ∧ link.standing = .ready ∧ s.deferred = []

/-- What a session waits for, by the state of the connection, and the operations behind it. -/
inductive Waits (s : Session) : Wire → Wait → Bool → List Operation → Prop
  | lookup (w : Wire) (host : String) (port : UInt16) : s.Dialling →
      s.transport.candidates = [] → Waits s w (.lookup host port) false []
  | dial (w : Wire) (endpoint : Endpoint) : s.Dialling → Waits s w (.dial endpoint) false []
  | negotiate {link : Link} (name : ServerName) : s.stage = .awaitingHandshake →
      s.connecting = false → s.transport.stream = none → s.transport.candidates = [] →
      s.transport.buffer = link.unread → link.standing = .granted .awaitingAuthTls →
      link.unsent = [] → Waits s (.live link) (.negotiate link.stream.connection name) false []
  | transmit {link : Link} : s.connecting = false → s.transport.Carries link →
      link.standing = .due s.stage →
      Waits s (.live link) (.transmit link.stream link.unsent) false [.readLine]
  | receive {link : Link} {watch : Bool} : s.Reads link watch →
      Waits s (.live link) (.receive link.stream) watch []

/-- The session can go on from the head of its loop. -/
def Lands (p : Profile) (s : Session) (w : Wire) : Prop :=
  s.Tidy p ∧ s.Rests w s.transport.queue

end Session

/-- A session that is run fits the state of its connection. -/
def Runner.Matches (p : Profile) (r : Runner) (w : Wire) : Prop :=
  r.session.Tidy p ∧
    match r.phase with
    | .head => r.session.Rests w r.session.transport.queue
    | .idle => r.session.Closed ∧ r.session.transport.queue = []
    | .ready op false => r.session.Rests w (op :: r.session.transport.queue)
    | .ready op true => op = .readLine ∧ ∃ link, w = .live link ∧ r.session.Reads link true
    | .waiting wait watch => r.session.Waits w wait watch r.session.transport.queue
    | .over => r.session.transport.stream = none

theorem Argument.ofText_text (argument : Argument) (missing : String) :
    Argument.ofText missing argument.text = .ok argument := by
  simp [ofText, argument.nonempty, argument.one_line]

theorem Command.argument_of_map {wrap : Argument → Command} {missing text : String}
    {command : Command} (h : wrap <$> Argument.ofText missing text = .ok command) :
    ∃ argument, command = wrap argument ∧ argument.text = text := by
  unfold Argument.ofText at h
  split at h
  next => simp [Functor.map, Except.map] at h
  next hn =>
    split at h
    next hl =>
      simp only [Functor.map, Except.map, Except.ok.injEq] at h
      exact ⟨⟨text, hn, hl⟩, h.symm, rfl⟩
    next => simp [Functor.map, Except.map] at h

namespace Session

variable {p : Profile} {s : Session} {w : Wire} {link : Link}

/-- The use of a connection depends on nothing else in the session, nor on the dialogue. -/
theorem Uses.stand (h : s.Uses link) {t : Session} {standing : Standing}
    (hc : t.connecting = s.connecting) (ht : t.transport = s.transport) :
    t.Uses { link with standing } := by
  refine ⟨hc.trans h.connecting, ?_, h.unsent⟩
  rw [ht]
  exact ⟨h.carries.stream, h.carries.encrypted, h.carries.candidates, h.carries.buffer⟩

theorem lands_fail (tidy : s.Tidy p) (message : String) (w : Wire) : (s.fail message).Lands p w :=
  ⟨⟨tidy.profile, by simp [fail, reset, emit], by simp [fail, reset, emit]⟩,
    .closed w ⟨rfl, rfl, rfl, rfl, ⟨rfl, rfl⟩⟩⟩

theorem lands_reset (tidy : s.Tidy p) (w : Wire) : s.reset.Lands p w :=
  ⟨⟨tidy.profile, by simp [reset], by simp [reset]⟩,
    .closed w ⟨rfl, rfl, rfl, rfl, ⟨rfl, rfl⟩⟩⟩

theorem lands_beginConnect (tidy : s.Tidy p) (w : Wire) : s.beginConnect.Lands p w :=
  ⟨⟨tidy.profile, tidy.deferred, by simp [beginConnect]⟩,
    .resolving w ⟨rfl, rfl, rfl, ⟨rfl, rfl⟩⟩ rfl⟩

theorem send_of_open (hopen : s.transport.isOpen = true) (command : Command) :
    s.send command = { s.log (">>> " ++ command.shown) with
      transport := (s.transport.push (.writeLine command.line)).push .readLine } := by
  have hpush : (s.transport.push (.writeLine command.line)).isOpen = true := hopen
  simp [send, withTransport, Transport.request, log, emit, hopen, hpush, bind, Except.bind]

theorem readNext_of_open (hopen : s.transport.isOpen = true) :
    s.readNext = { s with transport := s.transport.push .readLine } := by
  simp [readNext, withTransport, Transport.request, hopen]

theorem lands_send {command : Command} {stage : Stage} (tidy : s.Tidy p) (uses : s.Uses link)
    (empty : s.transport.queue = []) (unlisted : s.listing = #[])
    (permits : Permits p link.standing command stage) :
    ((s.send command).enter stage).Lands p (.live link) := by
  have hsend : s.send command = { s.log (">>> " ++ command.shown) with
      transport := { s.transport with queue := [.writeLine command.line, .readLine] } } := by
    have hopen : s.transport.isOpen = true := by simp [Transport.isOpen, uses.carries.stream]
    simp [send_of_open hopen, Transport.push, empty]
  rw [hsend]
  refine ⟨⟨tidy.profile, tidy.deferred, fun h => absurd unlisted h⟩, ?_⟩
  refine .sending ⟨uses.connecting, ?_, uses.unsent⟩ (by rw [← tidy.profile] at permits; exact permits)
  exact ⟨uses.carries.stream, uses.carries.encrypted, uses.carries.candidates, uses.carries.buffer⟩

theorem lands_readNext (tidy : s.Tidy p) (uses : s.Uses link) (empty : s.transport.queue = [])
    (due : link.standing = .due s.stage) : s.readNext.Lands p (.live link) := by
  have hread : s.readNext = { s with transport := { s.transport with queue := [.readLine] } } := by
    have hopen : s.transport.isOpen = true := by simp [Transport.isOpen, uses.carries.stream]
    simp [readNext_of_open hopen, Transport.push, empty]
  rw [hread]
  refine ⟨⟨tidy.profile, tidy.deferred, tidy.listing⟩, .reading ⟨uses.connecting, ?_, uses.unsent⟩ due⟩
  exact ⟨uses.carries.stream, uses.carries.encrypted, uses.carries.candidates, uses.carries.buffer⟩

theorem lands_ready (tidy : s.Tidy p) (uses : s.Uses link) (empty : s.transport.queue = [])
    (stage : s.stage = .loggedIn) (standing : link.standing = .ready) : s.Lands p (.live link) := by
  refine ⟨tidy, ?_⟩
  rw [empty]
  exact .ready uses stage standing

theorem lands_sendUser (tidy : s.Tidy p) (uses : s.Uses link) (empty : s.transport.queue = [])
    (unlisted : s.listing = #[])
    (permits : ∀ name : Argument, name.text = p.username →
      Permits p link.standing (.user name) .awaitingUser) : s.sendUser.Lands p (.live link) := by
  unfold sendUser
  split
  next command hc =>
    obtain ⟨name, rfl, hn⟩ := Command.argument_of_map hc
    exact lands_send tidy uses empty unlisted (permits name (by rw [hn, tidy.profile]))
  next failure _ => exact lands_fail tidy failure.message _

theorem lands_sendPassword (tidy : s.Tidy p) (uses : s.Uses link) (empty : s.transport.queue = [])
    (unlisted : s.listing = #[]) (standing : link.standing = .granted .awaitingUser) :
    s.sendPassword.Lands p (.live link) := by
  unfold sendPassword
  split
  next command hc =>
    obtain ⟨password, rfl, hw⟩ := Command.argument_of_map hc
    refine lands_send tidy uses empty unlisted ?_
    rw [standing]
    exact .pass (by rw [hw, tidy.profile])
  next failure _ => exact lands_fail tidy failure.message _

theorem lands_loggedIn (tidy : s.Tidy p) (uses : s.Uses link) (empty : s.transport.queue = [])
    (unlisted : s.listing = #[]) (standing : link.standing = .ready) :
    s.loggedIn.Lands p (.live link) := by
  refine lands_ready ⟨tidy.profile, ?_, fun h => absurd unlisted h⟩ ⟨uses.connecting, uses.carries, uses.unsent⟩
    empty rfl standing
  intro request hr
  rcases List.mem_append.mp hr with hr | hr
  · rcases List.mem_append.mp hr with hr | hr
    · obtain ⟨path, _, rfl⟩ := List.mem_map.mp hr
      rfl
    · by_cases hl : s.profile.listAfterLogin = true
      · simp only [enter, emit, hl, ↓reduceIte, List.mem_singleton] at hr
        rw [hr]
        rfl
      · simp [enter, emit, hl] at hr
  · exact tidy.deferred request hr

theorem lands_afterWelcome (tidy : s.Tidy p) (uses : s.Uses link) (empty : s.transport.queue = [])
    (unlisted : s.listing = #[]) (standing : link.standing = .granted .awaitingWelcome) :
    s.afterWelcome.Lands p (.live link) := by
  unfold afterWelcome
  split
  next tls =>
    refine lands_send tidy uses empty unlisted ?_
    rw [standing]
    exact .authTls (by rw [← tidy.profile]; exact tls)
  next plain =>
    refine lands_sendUser tidy uses empty unlisted fun name hn => ?_
    rw [standing]
    exact .user (by rw [← tidy.profile]; simpa using plain) hn

theorem lands_afterAuthTls (tidy : s.Tidy p) (uses : s.Uses link) (empty : s.transport.queue = [])
    (unlisted : s.listing = #[]) (standing : link.standing = .granted .awaitingAuthTls)
    (plain : link.stream.secure = false) : s.afterAuthTls.Lands p (.live link) := by
  have hrequest : s.transport.requestHandshake =
      .ok { s.transport with queue := [.handshake] } := by
    simp [Transport.requestHandshake, Transport.request, Transport.push, Transport.isOpen,
      uses.carries.stream, uses.carries.encrypted, plain, empty]
  unfold afterAuthTls
  rw [hrequest]
  refine ⟨⟨tidy.profile, tidy.deferred, fun h => absurd unlisted h⟩, ?_⟩
  refine .shaking ⟨uses.connecting, ?_, uses.unsent⟩ rfl standing
  exact ⟨uses.carries.stream, uses.carries.encrypted, uses.carries.candidates, uses.carries.buffer⟩

theorem lands_afterUser (tidy : s.Tidy p) (uses : s.Uses link) (empty : s.transport.queue = [])
    (unlisted : s.listing = #[]) (line : String) (code : UInt16) :
    (s.afterUser code).Lands p (link.move (Standing.grant line code .awaitingUser)) := by
  unfold afterUser
  simp only [Standing.grant, Link.move]
  split
  next => exact lands_loggedIn tidy (uses.stand rfl rfl) empty unlisted rfl
  next => exact lands_sendPassword tidy (uses.stand rfl rfl) empty unlisted rfl

theorem lands_afterCwd (tidy : s.Tidy p) (uses : s.Uses link) (empty : s.transport.queue = [])
    (unlisted : s.listing = #[]) (standing : link.standing = .granted .awaitingCwd) :
    s.afterCwd.Lands p (.live link) := by
  refine lands_send tidy uses empty unlisted ?_
  rw [standing]
  exact .pwd

theorem lands_afterPwd (tidy : s.Tidy p) (uses : s.Uses link) (empty : s.transport.queue = [])
    (unlisted : s.listing = #[]) (line : String) (code : UInt16) :
    (s.afterPwd line).Lands p (link.move (Standing.grant line code .awaitingPwd)) := by
  unfold afterPwd
  cases hpath : Reply.ofLine line.toList >>= Reply.quotedPath with
  | ok path =>
    simp only [Standing.grant, hpath, Link.move]
    exact lands_ready ⟨tidy.profile, tidy.deferred, fun h => absurd unlisted h⟩
      (uses.stand rfl rfl) empty rfl rfl
  | error failure => exact lands_fail tidy failure.message _

theorem lands_afterStat (today : Date) (tidy : s.Tidy p) (uses : s.Uses link)
    (empty : s.transport.queue = []) : (s.afterStat today).Lands p
      (.live { link with standing := .ready }) := by
  unfold afterStat
  dsimp only
  split
  next =>
    exact lands_ready ⟨tidy.profile, tidy.deferred, fun h => absurd rfl h⟩
      (uses.stand rfl rfl) empty rfl rfl
  next =>
    exact lands_ready ⟨tidy.profile, tidy.deferred, fun h => absurd rfl h⟩
      (uses.stand rfl rfl) empty rfl rfl

/-- A line of a reply that is due takes the session where it takes the dialogue. -/
theorem lands_accept {line : String} {next : Session → UInt16 → Session} (tidy : s.Tidy p)
    (uses : s.Uses link) (empty : s.transport.queue = []) (due : link.standing = .due s.stage)
    (good : ∀ code, (next (s.log line) code).Lands p (link.move (Standing.grant line code s.stage))) :
    (s.accept line next).Lands p (link.move (link.standing.hear line)) := by
  have hlog : (s.log line).Tidy p := ⟨tidy.profile, tidy.deferred, tidy.listing⟩
  have huses : (s.log line).Uses { link with standing := .due s.stage } := uses.stand rfl rfl
  unfold accept
  dsimp only
  rw [due]
  -- The session and the dialogue judge the line alike.
  simp only [Standing.hear]
  cases judge line with
  | invalid => exact lands_fail hlog _ _
  | continued => exact lands_readNext hlog huses empty rfl
  | refused message => exact lands_fail hlog message _
  | accepted code => exact good code

theorem lands_handleStat (today : Date) (line : String) (tidy : s.Tidy p) (uses : s.Uses link)
    (empty : s.transport.queue = []) (due : link.standing = .due s.stage)
    (stage : s.stage = .awaitingStat) :
    (s.handleStat today line).Lands p (link.move (link.standing.hear line)) := by
  unfold handleStat
  split
  next invalid =>
    have hhear : link.standing.hear line = some (.due .awaitingStat) := by
      simp [due, stage, Standing.hear, invalid]
    rw [hhear]
    dsimp only [Link.move]
    split
    next =>
      exact lands_readNext ⟨tidy.profile, tidy.deferred, fun _ => stage⟩
        (uses.stand rfl rfl) empty (by rw [← stage]; rfl)
    next =>
      exact lands_readNext ⟨tidy.profile, tidy.deferred, fun _ => stage⟩
        (uses.stand rfl rfl) empty (by rw [← stage])
  next =>
    refine lands_accept tidy uses empty due fun code => ?_
    rw [stage]
    exact lands_afterStat today ⟨tidy.profile, tidy.deferred, tidy.listing⟩
      ⟨uses.connecting, uses.carries, uses.unsent⟩ empty

theorem lands_handleUnexpected (line : String) (tidy : s.Tidy p) (uses : s.Uses link)
    (empty : s.transport.queue = []) (stage : s.stage = .loggedIn) (standing : link.standing = .ready) :
    (s.handleUnexpected line).Lands p (.live link) := by
  unfold handleUnexpected
  dsimp only
  split
  next =>
    exact lands_ready ⟨tidy.profile, tidy.deferred, tidy.listing⟩
      ⟨uses.connecting, uses.carries, uses.unsent⟩ empty stage standing
  next =>
    exact lands_ready ⟨tidy.profile, tidy.deferred, tidy.listing⟩
      ⟨uses.connecting, uses.carries, uses.unsent⟩ empty stage standing

/-- A line takes the session where it takes the dialogue. -/
theorem lands_handleLine (today : Date) (line : String) (tidy : s.Tidy p) (uses : s.Uses link)
    (empty : s.transport.queue = []) (due : link.standing = .due s.stage)
    (sound : link.standing.Fits p.authTls link.stream.secure) :
    (s.handleLine today line).Lands p (link.move (link.standing.hear line)) := by
  have unlisted : s.stage ≠ .awaitingStat → s.listing = #[] := fun h =>
    Classical.byContradiction fun hl => h (tidy.listing hl)
  have hlog : (s.log line).Tidy p := ⟨tidy.profile, tidy.deferred, tidy.listing⟩
  have huses : ∀ standing, (s.log line).Uses { link with standing } := fun _ => uses.stand rfl rfl
  rw [due] at sound
  unfold handleLine
  cases hs : s.stage with
  | notConnected | awaitingHandshake | loggedIn => rw [hs] at sound; exact sound.elim
  | awaitingWelcome =>
    refine lands_accept tidy uses empty due fun code => ?_
    rw [hs]
    exact lands_afterWelcome hlog (huses _) empty (unlisted (by simp [hs])) rfl
  | awaitingAuthTls =>
    refine lands_accept tidy uses empty due fun code => ?_
    rw [hs] at sound ⊢
    exact lands_afterAuthTls hlog (huses _) empty (unlisted (by simp [hs])) rfl sound.2
  | awaitingPbsz =>
    refine lands_accept tidy uses empty due fun code => ?_
    rw [hs]
    exact lands_sendUser hlog (huses _) empty (unlisted (by simp [hs])) fun name hn => .userEncrypted hn
  | awaitingUser =>
    refine lands_accept tidy uses empty due fun code => ?_
    rw [hs]
    exact lands_afterUser hlog ⟨uses.connecting, uses.carries, uses.unsent⟩ empty
      (unlisted (by simp [hs])) line code
  | awaitingPass =>
    refine lands_accept tidy uses empty due fun code => ?_
    rw [hs]
    exact lands_loggedIn hlog (huses _) empty (unlisted (by simp [hs])) rfl
  | awaitingCwd =>
    refine lands_accept tidy uses empty due fun code => ?_
    rw [hs]
    exact lands_afterCwd hlog (huses _) empty (unlisted (by simp [hs])) rfl
  | awaitingPwd =>
    refine lands_accept tidy uses empty due fun code => ?_
    rw [hs]
    exact lands_afterPwd hlog ⟨uses.connecting, uses.carries, uses.unsent⟩ empty
      (unlisted (by simp [hs])) line code
  | awaitingStat => exact lands_handleStat today line tidy uses empty due hs

theorem lands_beginChangeDirectory (path : String) (tidy : s.Tidy p) (uses : s.Uses link)
    (empty : s.transport.queue = []) (stage : s.stage = .loggedIn) (standing : link.standing = .ready) :
    (s.beginChangeDirectory path).Lands p (.live link) := by
  have unlisted : s.listing = #[] := Classical.byContradiction fun hl => by
    have := tidy.listing hl
    simp [stage] at this
  unfold beginChangeDirectory
  split
  next command hc =>
    obtain ⟨argument, rfl, _⟩ := Command.argument_of_map hc
    refine lands_send tidy uses empty unlisted ?_
    rw [standing]
    exact .cwd argument
  next =>
    exact lands_ready ⟨tidy.profile, tidy.deferred, tidy.listing⟩
      ⟨uses.connecting, uses.carries, uses.unsent⟩ empty stage standing

theorem lands_beginListing (tidy : s.Tidy p) (uses : s.Uses link) (empty : s.transport.queue = [])
    (standing : link.standing = .ready) : s.beginListing.Lands p (.live link) := by
  refine lands_send ⟨tidy.profile, tidy.deferred, fun h => absurd rfl h⟩
    ⟨uses.connecting, uses.carries, uses.unsent⟩ empty rfl ?_
  rw [standing]
  exact .statList

theorem lands_handle_interrupting {request : Request} (tidy : s.Tidy p)
    (hi : request.interrupts = true) (w : Wire) : (s.handle request).Lands p w := by
  cases request with
  | connect => exact lands_beginConnect tidy w
  | disconnect => exact lands_reset tidy w
  | changeDirectory path | listDirectory => simp [Request.interrupts] at hi

theorem lands_handle_ready (request : Request) (tidy : s.Tidy p) (uses : s.Uses link)
    (empty : s.transport.queue = []) (stage : s.stage = .loggedIn) (standing : link.standing = .ready) :
    (s.handle request).Lands p (.live link) := by
  cases request with
  | connect => exact lands_beginConnect tidy _
  | disconnect => exact lands_reset tidy _
  | changeDirectory path =>
    simp only [handle, navigate, stage, ↓reduceIte]
    exact lands_beginChangeDirectory path tidy uses empty stage standing
  | listDirectory =>
    simp only [handle, navigate, stage, ↓reduceIte]
    exact lands_beginListing tidy uses empty standing

theorem lands_handle_closed (request : Request) (tidy : s.Tidy p) (closed : s.Closed)
    (empty : s.transport.queue = []) (w : Wire) : (s.handle request).Lands p w := by
  have hn : ∀ start, s.navigate request start = s.emit (.error "Not logged in.") := fun start => by
    simp [navigate, closed.stage, closed.connecting, Stage.isAwaiting]
  have hl : (s.emit (.error "Not logged in.")).Lands p w := by
    refine ⟨⟨tidy.profile, tidy.deferred, tidy.listing⟩, ?_⟩
    have hq : (s.emit (.error "Not logged in.")).transport.queue = [] := empty
    rw [hq]
    exact .closed w ⟨closed.stage, closed.connecting, closed.deferred, closed.candidates, closed.vacant⟩
  cases request with
  | connect => exact lands_beginConnect tidy w
  | disconnect => exact lands_reset tidy w
  | changeDirectory path =>
    rw [handle, hn]
    exact hl
  | listDirectory =>
    rw [handle, hn]
    exact hl

end Session

end FtpControl

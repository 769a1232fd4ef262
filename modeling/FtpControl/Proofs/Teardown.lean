import FtpControl.Proofs.Replies
import FtpControl.Proofs.StepEvents

namespace FtpControl.Session

/-- What a session can be made to handle. -/
inductive Cue where
  | notice (today : Date) (outcome : Notice)
  | request (request : Request)

def take (s : Session) : Cue → Session
  | .notice today outcome => s.notice today outcome
  | .request request => s.handle request

structure Emptied (s : Session) : Prop where
  connecting : s.connecting = false
  listing : s.listing = #[]
  deferred : s.deferred = []
  stream : s.transport.stream = none
  queue : s.transport.queue = []
  candidates : s.transport.candidates = []
  buffer : s.transport.buffer = []

/-- The last events tell of a command that found no connection. -/
def Unsent (command : Command) (events : List Event) : Prop :=
  [.log (">>> " ++ command.shown), .fatal Transport.notOpen.message] <:+ events

/-- How a step that told these events has left a session. -/
inductive Fate (s s' : Session) (events : List Event) : Prop
  | unbroken : (∀ message, .fatal message ∉ events) → Fate s s' events
  | torn : s'.Emptied → s'.stage = .notConnected → (∀ command, ¬Unsent command events) →
      Fate s s' events
  | unsent (command : Command) : s.transport.isOpen = false → Unsent command events → s'.Emptied →
      s'.stage = command.stage → s'.stage.isAwaiting = true → Fate s s' events

/-- A step has told some events and left the session as befits them. -/
def Fares (s s' : Session) : Prop :=
  ∃ events, s'.news = s.news ++ events ∧ Fate s s' events

variable {s s' : Session}

theorem Blank.emptied (h : s.Blank) : s.Emptied :=
  ⟨h.connecting, h.listing, h.deferred, h.stream, h.queue, h.candidates, h.buffer⟩

theorem Emptied.enter (h : s.Emptied) (stage : Stage) : (s.enter stage).Emptied :=
  ⟨h.connecting, h.listing, h.deferred, h.stream, h.queue, h.candidates, h.buffer⟩

theorem Unsent.of_cons {command : Command} {event : Event} {events : List Event}
    (h : Unsent command (event :: events)) (he : event ≠ .log (">>> " ++ command.shown)) :
    Unsent command events := by
  rcases List.suffix_cons_iff.mp h with heq | hsuffix
  · exact absurd (List.cons.inj heq).1.symm he
  · exact hsuffix

theorem Fares.of_eq {t : Session} (h : t.Fares s') (hn : t.news = s.news)
    (hopen : t.transport.isOpen = s.transport.isOpen) : s.Fares s' := by
  obtain ⟨events, hnews, fate⟩ := h
  refine ⟨events, by rw [hnews, hn], ?_⟩
  cases fate with
  | unbroken calm => exact .unbroken calm
  | torn emptied stage sent => exact .torn emptied stage sent
  | unsent command closed h emptied stage awaiting =>
    exact .unsent command (hopen ▸ closed) h emptied stage awaiting

theorem Fares.emit (event : Event) (h : (s.emit event).Fares s')
    (calm : ∀ message, event ≠ .fatal message)
    (plain : ∀ command : Command, event ≠ .log (">>> " ++ command.shown)) : s.Fares s' := by
  obtain ⟨events, hnews, fate⟩ := h
  refine ⟨event :: events, by rw [hnews]; simp [Session.emit], ?_⟩
  cases fate with
  | unbroken quiet =>
    refine .unbroken fun message hm => ?_
    rcases List.mem_cons.mp hm with rfl | hm
    · exact calm message rfl
    · exact quiet message hm
  | torn emptied stage sent =>
    exact .torn emptied stage fun command h => sent command (h.of_cons (plain command))
  | unsent command closed h emptied stage awaiting =>
    exact .unsent command closed (h.trans (List.suffix_cons _ _)) emptied stage awaiting

theorem announcement_head (command : Command) : (">>> " ++ command.shown).toList.head? = some '>' := by
  simp [String.toList_append]

theorem Fares.log (line : String) (h : (s.log line).Fares s') (hl : line.toList.head? ≠ some '>') :
    s.Fares s' := by
  refine Fares.emit _ h nofun fun command he => hl ?_
  rw [Event.log.inj he]
  exact announcement_head command

theorem fares_quiet (h : s'.news = s.news) : s.Fares s' :=
  ⟨[], by simpa using h, .unbroken (by simp)⟩

theorem fares_told {event : Event} (h : s'.news = s.news ++ [event])
    (calm : ∀ message, event ≠ .fatal message) : s.Fares s' :=
  ⟨[event], h, .unbroken fun message hm => calm message (List.mem_singleton.mp hm).symm⟩

theorem fares_fail (s : Session) (message : String) : s.Fares (s.fail message) := by
  refine ⟨[.fatal message], rfl, .torn (s.fail_blank message).emptied rfl fun command h => ?_⟩
  simpa using h.length_le

theorem fares_withTransport (s : Session) (request : Transport → Except Failure Transport) :
    s.Fares (s.withTransport request) := by
  unfold withTransport
  split
  next => exact fares_quiet rfl
  next failure _ => exact fares_fail s failure.message

theorem send_of_closed (closed : s.transport.isOpen = false) (command : Command) :
    s.send command = (s.log (">>> " ++ command.shown)).fail Transport.notOpen.message := by
  simp [send, withTransport, Transport.request, Session.log, Session.emit, closed, bind, Except.bind]

/-- The stage is entered whether the command was sent or not. -/
theorem fares_send (s : Session) (command : Command) {stage : Stage} (hstage : command.stage = stage)
    (awaiting : stage.isAwaiting = true) : s.Fares ((s.send command).enter stage) := by
  cases hopen : s.transport.isOpen with
  | true =>
    rw [send_of_open hopen]
    exact fares_told rfl nofun
  | false =>
    rw [send_of_closed hopen]
    have emptied := ((s.log (">>> " ++ command.shown)).fail_blank Transport.notOpen.message).emptied
    exact ⟨[.log (">>> " ++ command.shown), .fatal Transport.notOpen.message],
      by simp [Session.enter, Session.fail, Session.reset, Session.log, Session.emit],
      .unsent command hopen List.suffix_rfl (emptied.enter stage) hstage.symm awaiting⟩

theorem fares_sendUser (s : Session) : s.Fares s.sendUser := by
  unfold sendUser
  split
  next command hc =>
    obtain ⟨name, rfl, _⟩ := Command.argument_of_map hc
    exact fares_send s _ rfl rfl
  next failure _ => exact fares_fail s failure.message

theorem fares_sendPassword (s : Session) : s.Fares s.sendPassword := by
  unfold sendPassword
  split
  next command hc =>
    obtain ⟨password, rfl, _⟩ := Command.argument_of_map hc
    exact fares_send s _ rfl rfl
  next failure _ => exact fares_fail s failure.message

theorem fares_afterWelcome (s : Session) : s.Fares s.afterWelcome := by
  unfold afterWelcome
  split
  next => exact fares_send s _ rfl rfl
  next => exact fares_sendUser s

theorem fares_afterAuthTls (s : Session) : s.Fares s.afterAuthTls := by
  unfold afterAuthTls
  split
  next => exact fares_quiet rfl
  next failure _ => exact fares_fail s failure.message

theorem fares_afterUser (s : Session) (code : UInt16) : s.Fares (s.afterUser code) := by
  unfold afterUser
  split
  next => exact fares_told rfl nofun
  next => exact fares_sendPassword s

theorem fares_afterPwd (s : Session) (line : String) : s.Fares (s.afterPwd line) := by
  unfold afterPwd
  split
  next => exact fares_told rfl nofun
  next failure _ => exact fares_fail s failure.message

theorem fares_afterStat (today : Date) (s : Session) : s.Fares (s.afterStat today) := by
  unfold afterStat
  dsimp only
  split
  next => exact fares_told rfl nofun
  next failure _ =>
    exact ⟨[.log failure.message, .error failure.message],
      by simp [Session.enter, Session.log, Session.emit], .unbroken (by simp)⟩

/-- The line may look like an announcement; the reason of the failure tells them apart. -/
theorem fares_accept {line : String} {next : Session → UInt16 → Session}
    (good : ∀ code, (s.log line).Fares (next (s.log line) code)) : s.Fares (s.accept line next) := by
  by_cases invalid : judge line = .invalid
  · refine ⟨[.log line, .fatal "Invalid reply received."], ?_, ?_⟩
    · simp [accept, invalid, Session.fail, Session.reset, Session.log, Session.emit]
    · simp only [accept, invalid]
      refine .torn (fail_blank _ _).emptied rfl fun command h => ?_
      have heq := h.eq_of_length rfl
      simp [Transport.notOpen, Failure.state] at heq
  · -- A reply begins with a digit.
    have hdigit : line.toList.head? ≠ some '>' := by
      intro hc
      obtain ⟨reply, hr⟩ := Option.ne_none_iff_exists'.mp fun hn => invalid (judge_invalid_iff.mpr hn)
      obtain ⟨c, hc', hd⟩ := Reply.head_of_ofLine? hr
      rw [hc] at hc'
      cases hc'
      simp [isDigit] at hd
    refine Fares.log line ?_ hdigit
    unfold accept
    dsimp only
    split
    next => exact fares_fail _ _
    next => exact fares_withTransport _ _
    next message _ => exact fares_fail _ message
    next code _ => exact good code

theorem fares_handleStat (today : Date) (s : Session) (line : String) :
    s.Fares (s.handleStat today line) := by
  unfold handleStat
  split
  next =>
    dsimp only
    split
    next =>
      refine Fares.log "(directory list was here)" ?_ (by decide)
      exact Fares.of_eq (fares_withTransport { s.log "(directory list was here)" with
        listing := (s.log "(directory list was here)").listing.push line } _) rfl rfl
    next =>
      exact Fares.of_eq (fares_withTransport { s with listing := s.listing.push line } _) rfl rfl
  next => exact fares_accept fun _ => fares_afterStat today _

theorem fares_handleUnexpected (s : Session) (line : String) :
    s.Fares (s.handleUnexpected line) := by
  unfold handleUnexpected
  dsimp only
  split
  next =>
    exact ⟨[.log line, .error "Invalid reply received."], by simp [Session.log, Session.emit],
      .unbroken (by simp)⟩
  next => exact fares_told rfl (by simp)

theorem fares_handleLine (today : Date) (s : Session) (line : String) :
    s.Fares (s.handleLine today line) := by
  unfold handleLine
  split
  next => exact fares_accept fun _ => fares_afterWelcome _
  next => exact fares_accept fun _ => fares_afterAuthTls _
  next => exact fares_accept fun _ => fares_sendUser _
  next => exact fares_accept (fares_afterUser _)
  next => exact fares_accept fun _ => fares_told rfl nofun
  next => exact fares_accept fun _ => fares_send _ _ rfl rfl
  next => exact fares_accept fun _ => fares_afterPwd _ line
  next => exact fares_handleStat today s line
  all_goals exact fares_handleUnexpected s line

theorem fares_call (today : Date) (s : Session) (call : Notice.Call) : s.Fares (s.call today call) := by
  cases call with
  | connected =>
    refine Fares.log "Connected." ?_ (by decide)
    refine Fares.emit .connected ?_ nofun nofun
    exact Fares.of_eq (fares_withTransport { ((s.log "Connected.").emit .connected) with
      connecting := false, stage := .awaitingWelcome } _) rfl rfl
  | handshakeDone =>
    exact Fares.log "TLS handshake complete." (fares_send _ _ rfl rfl) (by decide)
  | line text => exact fares_handleLine today s text
  | transportError message fatal =>
    have hlogged : ("Connection error: " ++ message).toList.head? ≠ some '>' := by
      simp [String.toList_append]
    refine Fares.log ("Connection error: " ++ message) ?_ hlogged
    cases fatal with
    | true => exact fares_fail _ message
    | false => exact fares_told rfl nofun

theorem fares_notice (today : Date) (s : Session) (outcome : Notice) :
    s.Fares (s.notice today outcome) := by
  cases outcome with
  | connected => exact fares_call today s .connected
  | handshakeDone => exact fares_call today s .handshakeDone
  | written => exact fares_quiet rfl
  | line text => exact fares_call today s (.line text)
  | error message fatal => exact fares_call today s (.transportError message fatal)
  | endpointFailed message exhausted =>
    cases exhausted with
    | false => exact fares_call today s (.transportError message false)
    | true =>
      -- The last address's failure is told before the failure of them all.
      have hlogged : ("Connection error: " ++ message).toList.head? ≠ some '>' := by
        simp [String.toList_append]
      refine Fares.log ("Connection error: " ++ message) ?_ hlogged
      refine Fares.emit (.error ("Connection error: " ++ message)) ?_ nofun nofun
      exact fares_call today _ (.transportError "Connection failed." true)

theorem fares_navigate {request : Request} {start : Session → Session} (h : s.Fares (start s)) :
    s.Fares (s.navigate request start) := by
  unfold navigate
  split
  next => exact h
  next =>
    split
    next => exact fares_quiet rfl
    next => exact fares_told rfl nofun

theorem fares_handle (s : Session) (request : Request) : s.Fares (s.handle request) := by
  cases request with
  | connect => exact fares_told rfl nofun
  | disconnect => exact fares_quiet rfl
  | changeDirectory path =>
    refine fares_navigate ?_
    unfold beginChangeDirectory
    split
    next command hc =>
      obtain ⟨argument, rfl, _⟩ := Command.argument_of_map hc
      exact fares_send s _ rfl rfl
    next => exact fares_told rfl nofun
  | listDirectory =>
    refine fares_navigate ?_
    exact Fares.of_eq (fares_send { s with listing := #[] } .statList rfl rfl) rfl rfl

theorem fares_take (s : Session) (cue : Cue) : s.Fares (s.take cue) := by
  cases cue with
  | notice today outcome => exact fares_notice today s outcome
  | request request => exact fares_handle s request

/-- Whatever a session is made to handle, it is not connected behind a fatal event and nothing is
under way, nor put off. Only where the failure is a command that found no connection, the stage is that of
the command's reply. -/
theorem fatal_empties (s : Session) (cue : Cue) :
    ∃ events, (s.take cue).news = s.news ++ events ∧
      ∀ message, .fatal message ∈ events → (s.take cue).Emptied ∧
        ((s.take cue).stage = .notConnected ∧ (∀ command, ¬Unsent command events) ∨
          ∃ command, Unsent command events ∧ s.transport.isOpen = false ∧
            (s.take cue).stage = command.stage ∧ command.stage.isAwaiting = true) := by
  obtain ⟨events, hnews, fate⟩ := fares_take s cue
  refine ⟨events, hnews, fun message hm => ?_⟩
  cases fate with
  | unbroken calm => exact absurd hm (calm message)
  | torn emptied stage sent => exact ⟨emptied, Or.inl ⟨stage, sent⟩⟩
  | unsent command closed h emptied stage awaiting =>
    exact ⟨emptied, Or.inr ⟨command, h, closed, stage, stage ▸ awaiting⟩⟩

theorem fatal_empties_mid_listing :
    ∃ (s : Session) (cue : Cue), s.stage = .awaitingStat ∧ s.transport.queue ≠ [] ∧ s.listing ≠ #[] ∧
      s.deferred ≠ [] ∧ .fatal "450 Busy" ∈ (s.take cue).news ∧ (s.take cue).Emptied ∧
        (s.take cue).stage = .notConnected := by
  let day : Date := ⟨2024, 1, 1, by decide⟩
  let s : Session :=
    { create { host := "localhost", username := "user", password := "secret" } true with
      stage := .awaitingStat
      transport := { trust := {}, stream := some ⟨0, true⟩, queue := [.readLine], buffer := [10] }
      listing := #["total 0"]
      deferred := [.changeDirectory "/pub"] }
  let cue : Cue := .notice day (.line "450 Busy")
  have told : (s.take cue).news = [.log "450 Busy", .fatal "450 Busy"] := by decide +kernel
  obtain ⟨events, hnews, falls⟩ := fatal_empties s cue
  have hevents : events = [.log "450 Busy", .fatal "450 Busy"] := by rw [← told, hnews]; rfl
  obtain ⟨emptied, ⟨stage, _⟩ | ⟨command, _, closed, _⟩⟩ := falls "450 Busy" (by simp [hevents])
  · exact ⟨s, cue, rfl, by simp [s], by simp [s], by simp [s], by simp [told], emptied, stage⟩
  · simp [s, Transport.isOpen] at closed

/-- The end of a handshake that nothing has asked for leaves a session without a connection at a stage
where it waits for a reply. -/
theorem unsent_command_keeps_stage :
    ¬∀ (s : Session) (cue : Cue) (events : List Event) (message : String),
      (s.take cue).news = s.news ++ events → .fatal message ∈ events → (s.take cue).Blank := by
  intro h
  let p : Profile := { host := "localhost", username := "user", password := "secret" }
  have blank := h (create p true) (.notice ⟨2024, 1, 1, by decide⟩ .handshakeDone)
    [.log "TLS handshake complete.", .log ">>> PBSZ 0", .fatal "Socket is not open."]
    "Socket is not open." (by decide +kernel) (by simp)
  have stage : ((create p true).take (.notice ⟨2024, 1, 1, by decide⟩ .handshakeDone)).stage =
      .awaitingPbsz := rfl
  rw [blank.stage] at stage
  cases stage

end FtpControl.Session

import FtpControl.Proofs.NavigationOrder

namespace FtpControl

def Event.listings (events : List Event) : List (List Entry) :=
  events.filterMap fun event =>
    match event with
    | .listing entries => some entries
    | _ => none

theorem Event.listings_append (events later : List Event) :
    listings (events ++ later) = listings events ++ listings later := by
  simp [listings]

theorem Event.listings_log (lines : List String) : listings (lines.map .log) = [] := by
  simp [listings]

namespace Transport

/-- An operation has come to no line, and nothing is in store that could become one. -/
structure Silent (x : Transport × Progress) : Prop where
  empty : x.1.buffer = []
  no_line : ∀ line, x.2 ≠ .done (some (.line line))

variable {t : Transport}

theorem fatal_silent (t : Transport) (message : String) : Silent (t.fatal message) :=
  ⟨rfl, nofun⟩

variable {x : Transport × Progress}

theorem ReadsOn.silent (h : ReadsOn t x) (empty : t.buffer = []) : Silent x := by
  cases h with
  | line _ hsplit =>
    rw [empty] at hsplit
    simp at hsplit
  | fails message => exact fatal_silent t message
  | waits _ _ _ => exact ⟨empty, nofun⟩

theorem begin_silent (empty : t.buffer = []) (op : Operation) : Silent (t.begin op) := by
  have begins := t.begin_begins op
  generalize t.begin op = x at begins ⊢
  cases begins with
  | looksUp | dials _ | negotiates _ _ _ | transmits _ _ => exact ⟨empty, nofun⟩
  | reads reads => exact reads.silent empty
  | fails _ message => exact fatal_silent t message

theorem resume_silent {wait : Wait} {answer : Answer} (empty : t.buffer = [])
    (hn : ∀ chunk, answer ≠ .received chunk) (hx : t.resume wait answer = some x) : Silent x := by
  cases resume_resumes hx with
  | finds _ _ _ _ | connects _ _ | passesOver _ _ _ | exhausts _ _ _ | secures _ _ | writes _ _
  | writesOn _ _ => exact ⟨empty, nofun⟩
  | reads _ chunk _ => exact absurd rfl (hn chunk)
  | fails _ message _ => exact fatal_silent t message

end Transport

namespace Session

/-- These listings have been told since then. -/
def Lists (base : List Event) (listed : List (List Entry)) (s : Session) : Prop :=
  ∃ events, s.news = base ++ events ∧ Event.listings events = listed

/-- These listings have been told since then, and nothing is in store that could become a line. -/
structure Quiet (base : List Event) (listed : List (List Entry)) (s : Session) : Prop where
  lists : s.Lists base listed
  empty : s.transport.buffer = []

variable {base : List Event} {listed : List (List Entry)} {s : Session}

theorem Lists.tell {t : Session} {events : List Event} (h : s.Lists base listed)
    (hn : t.news = s.news ++ events) : t.Lists base (listed ++ Event.listings events) := by
  obtain ⟨before, hbefore, rfl⟩ := h
  refine ⟨before ++ events, ?_, Event.listings_append before events⟩
  rw [hn, hbefore, List.append_assoc]

theorem Quiet.emit {event : Event} (h : s.Quiet base listed) (hn : Event.listings [event] = []) :
    (s.emit event).Quiet base listed := by
  have htell := h.lists.tell (t := s.emit event) rfl
  rw [hn, List.append_nil] at htell
  exact ⟨htell, h.empty⟩

theorem Quiet.log (h : s.Quiet base listed) (line : String) : (s.log line).Quiet base listed :=
  h.emit rfl

theorem Quiet.fail (h : s.Quiet base listed) (message : String) : (s.fail message).Quiet base listed :=
  have hreset : s.reset.Quiet base listed := ⟨h.lists, rfl⟩
  hreset.emit rfl

theorem Quiet.request {t : Transport} {op : Operation} (h : s.Quiet base listed)
    (ht : s.transport.request op = .ok t) : ({ s with transport := t } : Session).Quiet base listed := by
  refine ⟨h.lists, ?_⟩
  unfold Transport.request at ht
  split at ht
  next =>
    cases ht
    exact h.empty
  next => simp at ht

theorem Quiet.readNext (h : s.Quiet base listed) : s.readNext.Quiet base listed := by
  unfold Session.readNext withTransport
  split
  next transport ht => exact h.request ht
  next failure _ => exact h.fail failure.message

theorem Quiet.send (h : s.Quiet base listed) (command : Command) : (s.send command).Quiet base listed := by
  have hlog := h.log (">>> " ++ command.shown)
  unfold Session.send withTransport
  split
  next transport ht =>
    refine ⟨hlog.lists, ?_⟩
    cases hfirst : s.transport.request (.writeLine command.line) with
    | error failure => simp [Session.log, Session.emit, hfirst, bind, Except.bind] at ht
    | ok between =>
      have hsecond : between.request .readLine = .ok transport := by
        simpa [Session.log, Session.emit, hfirst, bind, Except.bind] using ht
      exact ((h.request hfirst).request hsecond).empty
  next failure _ => exact hlog.fail failure.message

theorem Quiet.handle (h : s.Quiet base listed) (request : Request) :
    (s.handle request).Quiet base listed := by
  have navigates : ∀ {start : Session → Session}, (start s).Quiet base listed →
      (s.navigate request start).Quiet base listed := by
    intro start hstart
    unfold Session.navigate
    split
    next => exact hstart
    next =>
      split
      next => exact ⟨h.lists, h.empty⟩
      next => exact h.emit rfl
  cases request with
  | connect => exact ⟨(h.log "Connecting...").lists, rfl⟩
  | disconnect => exact ⟨h.lists, rfl⟩
  | changeDirectory path =>
    apply navigates
    unfold Session.beginChangeDirectory
    split
    next command _ =>
      have hsend := h.send command
      exact ⟨hsend.lists, hsend.empty⟩
    next => exact h.emit rfl
  | listDirectory =>
    apply navigates
    have hsend := Quiet.send (s := { s with listing := #[] }) ⟨h.lists, h.empty⟩ .statList
    exact ⟨hsend.lists, hsend.empty⟩

theorem Quiet.call (today : Date) {call : Notice.Call} (h : s.Quiet base listed)
    (hn : ∀ line, call ≠ .line line) : (s.call today call).Quiet base listed := by
  cases call with
  | connected =>
    have hlog := Quiet.log (s := { s with connecting := false }) ⟨h.lists, h.empty⟩ "Connected."
    have hconnected := @Quiet.emit _ _ _ .connected hlog rfl
    have hentered : Quiet base listed
        (((({ s with connecting := false }).log "Connected.").emit .connected).enter .awaitingWelcome) :=
      ⟨hconnected.lists, hconnected.empty⟩
    exact hentered.readNext
  | handshakeDone =>
    have hsend := (h.log "TLS handshake complete.").send .pbszZero
    exact ⟨hsend.lists, hsend.empty⟩
  | line text => exact absurd rfl (hn text)
  | transportError message fatal =>
    have hlog := h.log ("Connection error: " ++ message)
    unfold Session.call
    dsimp only
    split
    next => exact hlog.fail message
    next => exact hlog.emit rfl

theorem Quiet.notice (today : Date) {outcome : Notice} (h : s.Quiet base listed)
    (hn : ∀ line, outcome ≠ .line line) : (s.notice today outcome).Quiet base listed := by
  have hcalls : ∀ call ∈ outcome.calls, ∀ line, call ≠ .line line := by
    cases outcome with
    | line text => exact absurd rfl (hn text)
    | endpointFailed message exhausted => cases exhausted <;> simp [Notice.calls]
    | _ => simp [Notice.calls]
  unfold Session.notice
  generalize outcome.calls = calls at hcalls
  induction calls generalizing s with
  | nil => exact h
  | cons call calls ih =>
    have hfirst := h.call today (hcalls call List.mem_cons_self)
    exact ih hfirst fun other ho => hcalls other (List.mem_cons_of_mem _ ho)

end Session

namespace Runner

def Input.bytes : Input → List UInt8
  | .answer (.received chunk) => chunk.bytes
  | _ => []

def received (moves : List Move) : List UInt8 :=
  moves.flatMap fun m => m.input.bytes

variable {r r' : Runner} {today : Date} {input : Input} {base : List Event}
  {listed : List (List Entry)}

theorem received_append (moves : List Move) (m : Move) :
    received (moves ++ [m]) = received moves ++ m.input.bytes := by
  simp [received]

theorem settle_quiet (today : Date) {s : Session} {x : Transport × Progress} (watch : Bool)
    (lists : s.Lists base listed) (silent : Transport.Silent x) :
    (settle today s watch x).session.Quiet base listed := by
  obtain ⟨t, progress⟩ := x
  have h : ({ s with transport := t } : Session).Quiet base listed := ⟨lists, silent.empty⟩
  cases progress with
  | blocked wait => exact h
  | done notice =>
    cases notice with
    | none => exact h
    | some outcome =>
      refine h.notice today ?_
      rintro line rfl
      exact silent.no_line line rfl

/-- An operation finds no line where nothing is in store and nothing comes. -/
theorem operates_quiet {x : Transport × Progress} (hx : r.operates? input = some x)
    (empty : r.session.transport.buffer = []) (hb : input.bytes = []) : Transport.Silent x := by
  unfold operates? at hx
  split at hx
  next op =>
    cases hx
    exact Transport.begin_silent empty _
  next wait _ answer _ =>
    have hanswer : ∀ chunk, answer ≠ .received chunk := by
      rintro chunk rfl
      exact chunk.nonempty hb
    exact Transport.resume_silent empty hanswer hx
  next => simp at hx

theorem hands_session {s : Session} {request : Request} (h : r.hands? input = some (s, request)) :
    ∃ deferred, s = { r.session with deferred } := by
  unfold hands? at h
  split at h
  next =>
    unfold takesUp? at h
    split at h
    next =>
      split at h
      next deferred _ =>
        cases h
        exact ⟨deferred, rfl⟩
      next => simp at h
    next => simp at h
  next =>
    cases h
    exact ⟨_, rfl⟩
  next =>
    split at h
    next =>
      cases h
      exact ⟨_, rfl⟩
    next => simp at h
  next =>
    split at h
    next =>
      cases h
      exact ⟨_, rfl⟩
    next => simp at h
  next => simp at h

/-- A step that brings nothing tells of no listing and leaves nothing in store. -/
theorem step_quiet (hs : r.step? today input = some r') (h : r.session.Quiet base listed)
    (hb : input.bytes = []) : r'.session.Quiet base listed := by
  cases step_turns hs with
  | @handles s request hhands =>
    obtain ⟨deferred, rfl⟩ := hands_session hhands
    exact Session.Quiet.handle (s := { r.session with deferred }) ⟨h.lists, h.empty⟩ request
  | defers _ _ _ => exact ⟨h.lists, h.empty⟩
  | operates watch hx _ =>
    exact settle_quiet today watch h.lists (operates_quiet hx h.empty hb)
  | passes queue phase _ _ => exact ⟨h.lists, h.empty⟩
  | finishes _ => exact ⟨h.lists, rfl⟩

/-- The session is over, or it has no connection and wants none. -/
def Gone (r : Runner) : Prop :=
  r.phase = .over ∨ (r.phase = .head ∨ r.phase = .idle) ∧ r.session.stage = .notConnected ∧
    r.session.connecting = false ∧ r.session.transport.queue = []

theorem gone_fail (s : Session) (message : String) : Gone { session := s.fail message } :=
  Or.inr ⟨Or.inl rfl, rfl, rfl, rfl⟩

/-- Without a connection nothing is received, and none is made unless it is asked for. -/
theorem Gone.step (gone : r.Gone) (hs : r.step? today input = some r')
    (calm : ∀ request, input = .request request → request.interrupts = false) :
    r'.Gone ∧ input.bytes = [] := by
  obtain ⟨s, phase⟩ := r
  rcases gone with hover | ⟨hphase, stage, connecting, queue⟩
  · dsimp only at hover
    subst hover
    simp [step?] at hs
  · dsimp only at hphase stage connecting queue
    rcases hphase with rfl | rfl
    · cases input with
      | proceed =>
        have hr : r' = ⟨s, .idle⟩ := by
          simpa [step?, atHead, Transport.next?, queue, stage, eq_comm] using hs
        rw [hr]
        exact ⟨Or.inr ⟨Or.inr rfl, stage, connecting, queue⟩, rfl⟩
      | request | answer | close => simp [step?] at hs
    · cases input with
      | request request =>
        have hi := calm request rfl
        have hr : r' = { session := s.emit (.error "Not logged in.") } := by
          cases request with
          | connect | disconnect => simp [Request.interrupts] at hi
          | changeDirectory path =>
            simpa [step?, Session.handle, Session.navigate, stage, connecting, Stage.isAwaiting,
              eq_comm] using hs
          | listDirectory =>
            simpa [step?, Session.handle, Session.navigate, stage, connecting, Stage.isAwaiting,
              eq_comm] using hs
        rw [hr]
        exact ⟨Or.inr ⟨Or.inl rfl, stage, connecting, queue⟩, rfl⟩
      | close =>
        have hr : r' = finish s := by simpa [step?, eq_comm] using hs
        rw [hr]
        exact ⟨Or.inl rfl, rfl⟩
      | proceed | answer => simp [step?] at hs

end Runner

end FtpControl

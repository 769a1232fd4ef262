import FtpControl.Proofs.NavigationOrder

namespace FtpControl

/-- What a session that is ready tells its owner: the end of a request, or a line that nothing has
asked for. -/
def Event.Reports (event : Event) : Prop :=
  (∃ request : Request, request.Outcome event) ∨ event = Desk.complaint

namespace Session

/-- How far a session has come from a connect on. -/
inductive Chapter where
  | dialling
  | login
  | ready
  | over
  deriving DecidableEq, Repr

def Chapter.of (connecting : Bool) : Stage → Chapter
  | .notConnected => if connecting then .dialling else .over
  | .loggedIn | .awaitingCwd | .awaitingPwd | .awaitingStat => .ready
  | _ => .login

def chapter (s : Session) : Chapter :=
  .of s.connecting s.stage

theorem stage_of_over {s : Session} (h : s.chapter = .over) : s.stage = .notConnected := by
  unfold chapter at h
  cases hs : s.stage with
  | notConnected => rfl
  | _ => simp [hs, Chapter.of] at h

/-- The session has no connection and wants none, and nothing of the last one is left. -/
structure Blank (s : Session) : Prop where
  stage : s.stage = .notConnected
  connecting : s.connecting = false
  listing : s.listing = #[]
  deferred : s.deferred = []
  stream : s.transport.stream = none
  queue : s.transport.queue = []
  candidates : s.transport.candidates = []
  buffer : s.transport.buffer = []

/-- What a session can tell behind some lines for the log, if it was here and is there now. -/
inductive Upshot (s s' : Session) : List Event → Prop
  | nothing : s'.chapter = s.chapter → Upshot s s' []
  | passedOver (message : String) : s.chapter = .dialling → s'.chapter = .dialling →
      Upshot s s' [.error ("Connection error: " ++ message)]
  | connected : s.chapter = .dialling → s'.chapter = .login → Upshot s s' [.connected]
  | idle : s.stage = .awaitingUser ∨ s.stage = .awaitingPass → s'.stage = .loggedIn →
      Upshot s s' [.idle]
  | report {event : Event} : s.chapter = .ready → s'.chapter = .ready → event.Reports →
      Upshot s s' [event]
  | refusal : s.chapter = .over → s'.chapter = .over → Upshot s s' [Desk.refusal]
  | fatal (message : String) : s.chapter ≠ .over → s'.Blank → Upshot s s' [.fatal message]
  | exhausted (message line last : String) : s.chapter = .dialling → s'.Blank →
      Upshot s s' [.error ("Connection error: " ++ message), .log line, .fatal last]

/-- What a session has told since then, and how far it has come with it. -/
def Reacts (s s' : Session) : Prop :=
  ∃ (lines : List String) (tail : List Event), s'.news = s.news ++ (lines.map .log ++ tail) ∧
    Upshot s s' tail

variable {s s' : Session}

theorem reset_blank (s : Session) : s.reset.Blank :=
  ⟨rfl, rfl, rfl, rfl, rfl, rfl, rfl, rfl⟩

theorem fail_blank (s : Session) (message : String) : (s.fail message).Blank :=
  ⟨rfl, rfl, rfl, rfl, rfl, rfl, rfl, rfl⟩

theorem Upshot.of_eq {t : Session} {tail : List Event} (h : t.Upshot s' tail)
    (hc : t.connecting = s.connecting) (hs : t.stage = s.stage) : s.Upshot s' tail := by
  have hchapter : t.chapter = s.chapter := by rw [chapter, hc, hs, chapter]
  cases h with
  | nothing h => exact .nothing (h.trans hchapter)
  | passedOver message h h' => exact .passedOver message (hchapter ▸ h) h'
  | connected h h' => exact .connected (hchapter ▸ h) h'
  | idle h h' => exact .idle (hs ▸ h) h'
  | report h h' reports => exact .report (hchapter ▸ h) h' reports
  | refusal h h' => exact .refusal (hchapter ▸ h) h'
  | fatal message h blank => exact .fatal message (hchapter ▸ h) blank
  | exhausted message line last h blank => exact .exhausted message line last (hchapter ▸ h) blank

theorem Reacts.of_eq {t : Session} (h : t.Reacts s') (hn : t.news = s.news)
    (hc : t.connecting = s.connecting) (hs : t.stage = s.stage) : s.Reacts s' := by
  obtain ⟨lines, tail, hnews, upshot⟩ := h
  exact ⟨lines, tail, by rw [hnews, hn], upshot.of_eq hc hs⟩

theorem Reacts.log (line : String) (h : (s.log line).Reacts s') : s.Reacts s' := by
  obtain ⟨lines, tail, hnews, upshot⟩ := h
  refine ⟨line :: lines, tail, ?_, upshot.of_eq rfl rfl⟩
  rw [hnews]
  simp [Session.log, emit]

theorem Reacts.quiet (hn : s'.news = s.news) (hc : s'.chapter = s.chapter) : s.Reacts s' :=
  ⟨[], [], by simpa using hn, .nothing hc⟩

theorem reacts_fail (h : s.chapter ≠ .over) (message : String) : s.Reacts (s.fail message) :=
  ⟨[], [.fatal message], rfl, .fatal message h (s.fail_blank message)⟩

theorem reacts_report {event : Event} (h : s.chapter = .ready) (reports : event.Reports) :
    s.Reacts (s.emit event) :=
  ⟨[], [event], rfl, .report h h reports⟩

theorem reacts_send {stage : Stage} (hopen : s.transport.isOpen = true) (command : Command)
    (h : Chapter.of s.connecting stage = s.chapter) :
    s.Reacts ((s.send command).enter stage) := by
  rw [send_of_open hopen]
  exact ⟨[">>> " ++ command.shown], [], rfl, .nothing h⟩

theorem reacts_readNext (hopen : s.transport.isOpen = true) : s.Reacts s.readNext := by
  rw [readNext_of_open hopen]
  exact .quiet rfl rfl

theorem reacts_sendUser (hopen : s.transport.isOpen = true) (h : s.chapter = .login) :
    s.Reacts s.sendUser := by
  unfold sendUser
  split
  next command _ => exact reacts_send hopen command h.symm
  next failure _ => exact reacts_fail (by simp [h]) failure.message

theorem reacts_sendPassword (hopen : s.transport.isOpen = true) (h : s.chapter = .login) :
    s.Reacts s.sendPassword := by
  unfold sendPassword
  split
  next command _ => exact reacts_send hopen command h.symm
  next failure _ => exact reacts_fail (by simp [h]) failure.message

theorem reacts_loggedIn (h : s.stage = .awaitingUser ∨ s.stage = .awaitingPass) :
    s.Reacts s.loggedIn :=
  ⟨[], [.idle], rfl, .idle h rfl⟩

theorem reacts_afterWelcome (hopen : s.transport.isOpen = true) (h : s.chapter = .login) :
    s.Reacts s.afterWelcome := by
  unfold afterWelcome
  split
  next => exact reacts_send hopen .authTls h.symm
  next => exact reacts_sendUser hopen h

theorem reacts_afterAuthTls (h : s.chapter = .login) : s.Reacts s.afterAuthTls := by
  unfold afterAuthTls
  split
  next => exact .quiet rfl h.symm
  next failure _ => exact reacts_fail (by simp [h]) failure.message

theorem reacts_afterUser (hopen : s.transport.isOpen = true) (h : s.stage = .awaitingUser)
    (code : UInt16) : s.Reacts (s.afterUser code) := by
  unfold afterUser
  split
  next => exact reacts_loggedIn (Or.inl h)
  next => exact reacts_sendPassword hopen (by rw [chapter, h]; rfl)

theorem reacts_afterPwd (h : s.chapter = .ready) (line : String) : s.Reacts (s.afterPwd line) := by
  unfold afterPwd
  split
  next path _ =>
    exact ⟨[], [.directory (String.ofList path)], rfl,
      .report h rfl (Or.inl ⟨_, .moved "" (String.ofList path)⟩)⟩
  next failure _ => exact reacts_fail (by simp [h]) failure.message

theorem reacts_afterStat (today : Date) (h : s.chapter = .ready) : s.Reacts (s.afterStat today) := by
  unfold afterStat
  dsimp only
  split
  next entries _ =>
    exact ⟨[], [.listing entries], rfl, .report h rfl (Or.inl ⟨_, .listed entries⟩)⟩
  next failure hf =>
    refine ⟨[failure.message], [.error failure.message], ?_,
      .report h rfl (Or.inl ⟨_, .unreadable hf⟩)⟩
    simp [emit, enter, log]

theorem reacts_accept {line : String} {next : Session → UInt16 → Session}
    (hopen : s.transport.isOpen = true) (h : s.chapter ≠ .over)
    (good : ∀ code, (s.log line).Reacts (next (s.log line) code)) :
    s.Reacts (s.accept line next) := by
  have stands : (s.log line).chapter ≠ .over := h
  refine Reacts.log line ?_
  unfold accept
  dsimp only
  split
  next => exact reacts_fail stands _
  next => exact reacts_readNext hopen
  next message _ => exact reacts_fail stands message
  next code _ => exact good code

theorem reacts_handleStat (today : Date) (hopen : s.transport.isOpen = true)
    (hs : s.stage = .awaitingStat) (line : String) : s.Reacts (s.handleStat today line) := by
  have h : s.chapter = .ready := by rw [chapter, hs]; rfl
  unfold handleStat
  split
  next =>
    dsimp only
    split
    next =>
      refine Reacts.log "(directory list was here)" ?_
      exact Reacts.of_eq (t := { s.log "(directory list was here)" with
        listing := (s.log "(directory list was here)").listing.push line })
        (reacts_readNext hopen) rfl rfl rfl
    next =>
      exact Reacts.of_eq (t := { s with listing := s.listing.push line })
        (reacts_readNext hopen) rfl rfl rfl
  next => exact reacts_accept hopen (by simp [h]) fun _ => reacts_afterStat today h

theorem reacts_handleUnexpected (h : s.chapter = .ready) (line : String) :
    s.Reacts (s.handleUnexpected line) := by
  refine Reacts.log line ?_
  unfold handleUnexpected
  dsimp only
  split
  next => exact reacts_report h (Or.inr rfl)
  next => exact .quiet rfl rfl

/-- Whatever a line is made of, the session stays in its chapter, or the login is done, or it is over. -/
theorem reacts_handleLine (today : Date) (hopen : s.transport.isOpen = true)
    (stands : s.stage ≠ .notConnected) (heard : s.stage ≠ .awaitingHandshake) (line : String) :
    s.Reacts (s.handleLine today line) := by
  have hlog : (s.log line).transport.isOpen = true := hopen
  have chapterOf : ∀ {stage}, s.stage = stage → s.chapter = .of s.connecting stage := fun hs => by
    rw [chapter, hs]
  unfold handleLine
  cases hs : s.stage with
  | notConnected => exact absurd hs stands
  | awaitingHandshake => exact absurd hs heard
  | loggedIn => exact reacts_handleUnexpected (chapterOf hs) line
  | awaitingStat => exact reacts_handleStat today hopen hs line
  | awaitingWelcome =>
    have h : s.chapter = .login := chapterOf hs
    exact reacts_accept hopen (by simp [h]) fun _ => reacts_afterWelcome hlog h
  | awaitingAuthTls =>
    have h : s.chapter = .login := chapterOf hs
    exact reacts_accept hopen (by simp [h]) fun _ => reacts_afterAuthTls h
  | awaitingPbsz =>
    have h : s.chapter = .login := chapterOf hs
    exact reacts_accept hopen (by simp [h]) fun _ => reacts_sendUser hlog h
  | awaitingUser =>
    have h : s.chapter = .login := chapterOf hs
    exact reacts_accept hopen (by simp [h]) fun code => reacts_afterUser hlog hs code
  | awaitingPass =>
    have h : s.chapter = .login := chapterOf hs
    exact reacts_accept hopen (by simp [h]) fun _ => reacts_loggedIn (Or.inr hs)
  | awaitingCwd =>
    have h : s.chapter = .ready := chapterOf hs
    exact reacts_accept hopen (by simp [h]) fun _ => reacts_send hlog .pwd h.symm
  | awaitingPwd =>
    have h : s.chapter = .ready := chapterOf hs
    exact reacts_accept hopen (by simp [h]) fun _ => reacts_afterPwd (s := s.log line) h line

theorem reacts_handle {request : Request} (hi : request.interrupts = false)
    (hopen : s.stage = .loggedIn → s.transport.isOpen = true) : s.Reacts (s.handle request) := by
  have navigates : ∀ {start : Session → Session}, (s.stage = .loggedIn → s.Reacts (start s)) →
      s.Reacts (s.navigate request start) := by
    intro start hstart
    unfold navigate
    split
    next hs => exact hstart hs
    next hs =>
      split
      next => exact .quiet rfl rfl
      next hn =>
        -- Neither logged in nor awaiting anything, the session is over.
        have hover : s.chapter = .over := by
          obtain ⟨awaiting, connecting⟩ := not_or.mp hn
          unfold chapter
          cases hstage : s.stage with
          | notConnected => simp [Chapter.of, connecting]
          | loggedIn => exact absurd hstage hs
          | _ => simp [hstage, Stage.isAwaiting] at awaiting
        exact ⟨[], [Desk.refusal], rfl, .refusal hover hover⟩
  cases request with
  | connect | disconnect => simp [Request.interrupts] at hi
  | changeDirectory path =>
    refine navigates fun hs => ?_
    have h : s.chapter = .ready := by rw [chapter, hs]; rfl
    unfold beginChangeDirectory
    split
    next command _ => exact reacts_send (hopen hs) command h.symm
    next failure hf => exact reacts_report h (Or.inl ⟨_, .rejected hf⟩)
  | listDirectory =>
    refine navigates fun hs => ?_
    have h : s.chapter = .ready := by rw [chapter, hs]; rfl
    have hchapter : Chapter.of s.connecting .awaitingStat = s.chapter := h.symm
    have hsend := reacts_send (s := { s with listing := #[] }) (hopen hs) .statList hchapter
    exact hsend.of_eq rfl rfl rfl

end Session

namespace Runner

variable {p : Profile} {s : Session} {w : Wire} {r r' : Runner} {today : Date} {input : Input}

theorem settle_fatal_reacts (today : Date) (h : s.chapter ≠ .over) (watch : Bool) (t : Transport)
    (message : String) : s.Reacts (settle today s watch (t.fatal message)).session :=
  have stands : (({ s with transport := t.disconnect } : Session).log
      ("Connection error: " ++ message)).chapter ≠ .over := h
  Session.Reacts.of_eq (t := { s with transport := t.disconnect })
    (Session.Reacts.log _ (Session.reacts_fail stands message)) rfl rfl rfl

theorem settle_reacts (today : Date) {x : Transport × Progress} (h : s.chapter ≠ .over) (watch : Bool)
    (meets : s.Meets x) : s.Reacts (settle today s watch x).session := by
  cases meets with
  | waits t wait | passes t | written t _ => exact .quiet rfl rfl
  | fails t message => exact settle_fatal_reacts today h watch t message
  | connected t hs hc hopen =>
    have hchapter : s.chapter = .dialling := by rw [Session.chapter, hs, hc]; rfl
    let standing : Session := { s with
      stage := .awaitingWelcome
      connecting := false
      transport := t
      news := s.news ++ [.log "Connected."] ++ [.connected] }
    change s.Reacts standing.readNext
    rw [Session.readNext_of_open hopen]
    exact ⟨["Connected."], [.connected], by simp [standing], .connected hchapter rfl⟩
  | passedOver t message exhausted hs hc =>
    have hchapter : s.chapter = .dialling := by rw [Session.chapter, hs, hc]; rfl
    cases exhausted with
    | false =>
      refine ⟨["Connection error: " ++ message], [.error ("Connection error: " ++ message)], ?_,
        .passedOver message hchapter hchapter⟩
      simp [settle, Transport.finish, Session.notice, Notice.calls, Session.call, Session.log, Session.emit]
    | true =>
      refine ⟨["Connection error: " ++ message], [.error ("Connection error: " ++ message),
        .log ("Connection error: " ++ "Connection failed."), .fatal "Connection failed."], ?_,
        .exhausted message _ _ hchapter (Session.fail_blank _ _)⟩
      simp [settle, Transport.finish, Session.notice, Notice.calls, Session.call, Session.log,
        Session.emit, Session.fail, Session.reset]
  | secured t hs hopen =>
    have hchapter : Session.Chapter.of s.connecting .awaitingPbsz = s.chapter := by
      rw [Session.chapter, hs]
      rfl
    have hsend := Session.reacts_send
      (s := ({ s with transport := t } : Session).log "TLS handshake complete.") hopen .pbszZero hchapter
    exact hsend.log.of_eq rfl rfl rfl
  | reads bytes stands heard hopen =>
    unfold Transport.readOn
    split
    next line buffer _ =>
      have hline := Session.reacts_handleLine (s := { s with transport := { s.transport with buffer } })
        today hopen stands heard line
      exact hline.of_eq rfl rfl rfl
    next =>
      split
      next => exact settle_fatal_reacts today h watch _ _
      next =>
        split
        next => exact settle_fatal_reacts today h watch _ _
        next => exact .quiet rfl rfl

/-- A session that is not over has no connection and nothing to do, or it waits for a connection, or it
has one; only a handshake takes the stream out of use. -/
theorem Matches.stands (matched : r.Matches p w) (sound : w.Sound p) :
    r.phase = .over ∨ (r.phase = .head ∨ r.phase = .idle) ∧ r.session.Closed ∨ r.session.Dialling ∨
      r.session.stage ≠ .notConnected ∧
        (r.session.stage = .awaitingHandshake ∨ r.session.transport.isOpen = true) := by
  obtain ⟨s, phase⟩ := r
  obtain ⟨_, matched⟩ := matched
  have due : ∀ {link : Link}, w = .live link → link.standing = .due s.stage →
      s.stage ≠ .notConnected := by
    rintro link rfl hdue hs
    rw [Wire.Sound, hdue, hs] at sound
    exact sound
  have reads : ∀ {link watch}, w = .live link → s.Reads link watch →
      s.stage ≠ .notConnected ∧ (s.stage = .awaitingHandshake ∨ s.transport.isOpen = true) := by
    intro link watch hw h
    refine ⟨?_, Or.inr h.uses.isOpen⟩
    cases watch with
    | false => exact due hw (h.due rfl)
    | true => simp [(h.idle rfl).1]
  have rests : ∀ {ops}, s.Rests w ops → s.Closed ∧ ops = [] ∨ s.Dialling ∨
      s.stage ≠ .notConnected ∧ (s.stage = .awaitingHandshake ∨ s.transport.isOpen = true) := by
    intro ops h
    cases h with
    | closed _ closed => exact Or.inl ⟨closed, rfl⟩
    | resolving _ h _ | dialling _ h _ => exact Or.inr (Or.inl h)
    | shaking _ hs _ => exact Or.inr (Or.inr ⟨by simp [hs], Or.inl hs⟩)
    | sending uses permits =>
      refine Or.inr (Or.inr ⟨fun hs => ?_, Or.inr uses.isOpen⟩)
      have hawaiting := permits.stage_cases.1
      simp [hs, Stage.isAwaiting] at hawaiting
    | reading uses hdue => exact Or.inr (Or.inr ⟨due rfl hdue, Or.inr uses.isOpen⟩)
    | ready uses hs _ => exact Or.inr (Or.inr ⟨by simp [hs], Or.inr uses.isOpen⟩)
  cases phase with
  | head =>
    rcases rests matched with ⟨closed, _⟩ | h
    · exact Or.inr (Or.inl ⟨Or.inl rfl, closed⟩)
    · exact Or.inr (Or.inr h)
  | idle => exact Or.inr (Or.inl ⟨Or.inr rfl, matched.1⟩)
  | «over» => exact Or.inl rfl
  | ready op watch =>
    refine Or.inr (Or.inr ?_)
    cases watch with
    | true =>
      obtain ⟨_, link, hw, h⟩ := matched
      exact Or.inr (reads hw h)
    | false =>
      rcases rests matched with ⟨_, hops⟩ | h
      · simp at hops
      · exact h
  | waiting wait watch =>
    refine Or.inr (Or.inr ?_)
    dsimp only at matched ⊢
    generalize s.transport.queue = queue at matched
    cases matched with
    | lookup _ _ _ dialling _ | dial _ _ dialling => exact Or.inl dialling
    | negotiate _ hs => exact Or.inr ⟨by simp [hs], Or.inl hs⟩
    | transmit _ carries hdue =>
      exact Or.inr ⟨due rfl hdue, Or.inr (by simp [Transport.isOpen, carries.stream])⟩
    | receive h => exact Or.inr (reads rfl h)

theorem Matches.resting (matched : r.Matches p w) (sound : w.Sound p) (h : r.session.chapter = .over) :
    r.phase = .head ∨ r.phase = .idle ∨ r.phase = .over := by
  rcases matched.stands sound with hp | ⟨hp | hp, _⟩ | dialling | ⟨hs, _⟩
  · exact Or.inr (Or.inr hp)
  · exact Or.inl hp
  · exact Or.inr (Or.inl hp)
  · simp [Session.chapter, dialling.stage, dialling.connecting, Session.Chapter.of] at h
  · exact absurd (Session.stage_of_over h) hs

theorem Matches.underway {x : Transport × Progress} (matched : r.Matches p w) (sound : w.Sound p)
    (hx : r.operates? input = some x) : r.session.chapter ≠ .over := by
  intro hover
  unfold operates? at hx
  rcases matched.resting sound hover with hp | hp | hp <;> simp [hp] at hx

theorem Matches.isOpen (matched : r.Matches p w) (sound : w.Sound p) (hp : r.phase ≠ .over)
    (connected : r.session.stage ≠ .notConnected) (free : r.session.stage ≠ .awaitingHandshake) :
    r.session.transport.isOpen = true := by
  rcases matched.stands sound with hover | ⟨_, closed⟩ | dialling | ⟨_, hshaking | hopen⟩
  · exact absurd hover hp
  · exact absurd closed.stage connected
  · exact absurd dialling.stage connected
  · exact absurd hshaking free
  · exact hopen

/-- A step begins a new connection, puts an end to one at the owner's request, or tells what the session
comes to. -/
theorem step_reacts (matched : r.Matches p w) (sound : w.Sound p) (hs : r.step? today input = some r') :
    input = .request .connect ∧ r' = { session := r.session.beginConnect } ∨
      input = .request .disconnect ∧ r' = { session := r.session.reset } ∨
      input ≠ .request .connect ∧ input ≠ .request .disconnect ∧ r.session.Reacts r'.session := by
  by_cases hconnect : input = .request .connect
  · subst hconnect
    exact Or.inl ⟨rfl, step_interrupting rfl hs⟩
  by_cases hdisconnect : input = .request .disconnect
  · subst hdisconnect
    exact Or.inr (Or.inl ⟨rfl, step_interrupting rfl hs⟩)
  refine Or.inr (Or.inr ⟨hconnect, hdisconnect, ?_⟩)
  have calm : ∀ request, input = .request request → request.interrupts = false := by
    rintro request rfl
    cases request with
    | connect => exact absurd rfl hconnect
    | disconnect => exact absurd rfl hdisconnect
    | changeDirectory path | listDirectory => rfl
  cases step_turns hs with
  | @handles s request hhands =>
    rcases hands_cases matched hhands with ⟨rfl, rfl, hi⟩ | ⟨rfl, rfl, closed⟩ | ⟨hi, stage, hsame, _⟩
    · simp [calm request rfl] at hi
    · refine Session.reacts_handle (calm request rfl) fun hs => ?_
      simp [closed.stage] at hs
    · -- What has been put off does not show.
      have hphase : r.phase ≠ .over := fun hp => by simp [hands?, hp] at hhands
      have hopen := matched.isOpen sound hphase (by simp [stage]) (by simp [stage])
      have hhandle := Session.reacts_handle (s := { r.session with deferred := s.deferred }) hi fun _ => hopen
      rw [← hsame] at hhandle
      refine hhandle.of_eq ?_ ?_ ?_ <;> rw [hsame]
  | defers | passes | finishes => exact .quiet rfl rfl
  | operates watch hx _ =>
    exact settle_reacts today (matched.underway sound hx) watch (matched.meets sound hx)

end Runner

end FtpControl

import FtpControl.Proofs.SessionOutline

namespace FtpControl

def Profile.withPassword (p : Profile) (secret : Argument) : Profile :=
  { p with password := secret.text }

namespace Session

variable {s s₁ s₂ : Session}

theorem defer_outline (s : Session) (request : Request) :
    ({ s with deferred := s.deferred ++ [request] } : Session).outline =
      { s.outline with deferred := s.outline.deferred ++ [request] } := by
  unfold outline
  dsimp only
  split <;> rfl

theorem disconnect_outline (s : Session) :
    ({ s with transport := s.transport.disconnect } : Session).outline =
      { s.outline with transport := s.outline.transport.disconnect } := by
  unfold outline
  dsimp only
  split <;> rfl

theorem passWith_argument (secret : Argument) : Command.passWith secret.text = .ok (.pass secret) := by
  rw [Command.passWith, Argument.ofText_text]
  rfl

def gives (s : Session) (line : String) (secret : Argument) : Session :=
  { s with
    stage := .awaitingPass
    transport := { s.transport with queue := [.writeLine ("PASS " ++ secret.text), .readLine] }
    news := s.news ++ [.log line] ++ [.log ">>> PASS ****"] }

theorem gives_outline (line : String) (secret₁ secret₂ : Argument) (queue : List Operation)
    (h : Guise.outlined.session s₁ = Guise.outlined.session s₂) :
    ((s₁.gives line secret₁).requeue queue).outline = ((s₂.gives line secret₂).requeue queue).outline :=
  outline_congr (congrArg (fun s : Session => (s.gives line secret₁).requeue queue) h)

theorem notice_asking {secret : Argument} {outcome : Notice} (today : Date)
    (asks : s.AsksPassword outcome) (hopen : s.transport.isOpen = true)
    (hp : s.profile.password = secret.text) :
    ∃ line, outcome = .line line ∧ s.notice today outcome = (s.gives line secret).requeue
      (s.transport.queue ++ [.writeLine ("PASS " ++ secret.text)] ++ [.readLine]) := by
  obtain ⟨stage, line, code, rfl, hj, hc⟩ := asks
  refine ⟨line, rfl, ?_⟩
  change s.handleLine today line = _
  have hlog : (s.log line).transport.isOpen = true := hopen
  have hpass : Command.passWith (s.log line).profile.password = .ok (.pass secret) :=
    (congrArg Command.passWith hp).trans (passWith_argument secret)
  simp only [handleLine, stage, accept, hj, afterUser, if_neg hc, sendPassword, hpass]
  rw [send_of_open hlog]
  rfl

end Session

namespace Runner

variable {p : Profile} {w : Wire} {r r' r₁ r₂ r₁' r₂' : Runner} {today day₁ day₂ : Date}
  {input input₁ input₂ : Input} {beat : Beat} {secret₁ secret₂ : Argument}

/-- A step that brings something to the session, with its day. -/
structure Pulse where
  day : Date
  beat : Beat
  move : Move

def pulses (inputs : List (Date × Input)) (moves : List Move) : List Pulse :=
  (inputs.zip moves).filterMap fun (dated, m) =>
    (m.before.beat? m.input).map fun beat => ⟨dated.1, beat, m⟩

/-- What comes to the session in these steps, from its owner and from its transport. -/
def deliveries (pulses : List Pulse) : List (Date × Beat) :=
  pulses.filterMap fun x => if x.beat = .turn then none else some (x.day, x.beat)

/-- Two sessions with these passwords tell the same, come to the same, and ask the same of their
transports, but that each gives its own password when it is asked for it. -/
structure Pulse.Alike (secret₁ secret₂ : Argument) (x₁ x₂ : Pulse) : Prop where
  beat : x₁.beat = x₂.beat
  told : x₁.move.told = x₂.move.told
  stage : x₁.move.after.session.stage = x₂.move.after.session.stage
  connecting : x₁.move.after.session.connecting = x₂.move.after.session.connecting
  listing : x₁.move.after.session.listing = x₂.move.after.session.listing
  deferred : x₁.move.after.session.deferred = x₂.move.after.session.deferred
  queue : (∀ outcome, x₁.beat = .notice outcome → ¬x₁.move.before.session.AsksPassword outcome) →
    x₁.move.after.session.transport.queue = x₂.move.after.session.transport.queue
  password : ∀ outcome, x₁.beat = .notice outcome → x₁.move.before.session.AsksPassword outcome →
    x₁.move.after.session.transport.queue = [.writeLine ("PASS " ++ secret₁.text), .readLine] ∧
      x₂.move.after.session.transport.queue = [.writeLine ("PASS " ++ secret₂.text), .readLine]

/-- A beat finds the session where it waits for something, or where it takes up what was put off. -/
theorem outline_of_beat (hb : r.beat? input = some beat) (hs : r.step? today input = some r') :
    r.outline = (r.phase.stance, r.session.outline) := by
  have settled : ∀ {x}, r.operates? input = some x → r.outline = (r.phase.stance, r.session.outline) := by
    intro x hx
    obtain ⟨_, _, hstance, hout⟩ := settle_of_operates hx hs
    rw [hout, hstance]
  cases beats_of_beat hb with
  | turn _ htakes => rw [outline, passed, if_neg fun h => htakes h.2]
  | notice hx => exact settled hx
  | request | close =>
    refine outline_of_ne fun hp => ?_
    simp [step?, hp] at hs

theorem hands_of_stance (request : Request) (hs : r.step? today (.request request) = some r') :
    r.hands? (.request request) =
      if request.interrupts = true ∨ r.phase.stance ≠ .busy then some (r.session, request) else none := by
  obtain ⟨s, phase⟩ := r
  cases phase with
  | head | «over» => simp [step?] at hs
  | idle => simp [hands?, Phase.stance]
  | ready op watch | waiting wait watch => cases watch <;> simp [hands?, Phase.stance]

theorem step_request {request : Request} (matched : r.Matches p w)
    (hs : r.step? today (.request request) = some r') :
    (request.interrupts = true ∨ r.phase.stance ≠ .busy) ∧
        (request.interrupts = true ∨ r.session.stage ≠ .awaitingHandshake) ∧
        r' = { session := r.session.handle request } ∨
      ¬(request.interrupts = true ∨ r.phase.stance ≠ .busy) ∧ r.phase ≠ .head ∧
        r' = { r with session := { r.session with deferred := r.session.deferred ++ [request] } } := by
  have given := hands_of_stance request hs
  cases step_turns hs with
  | handles hhands =>
    rw [given] at hhands
    split at hhands
    next h =>
      obtain ⟨rfl, rfl⟩ := Prod.mk.inj (Option.some.inj hhands)
      refine Or.inl ⟨h, ?_, rfl⟩
      rw [if_pos h] at given
      rcases hands_cases matched given with ⟨_, _, hi⟩ | ⟨_, _, closed⟩ | ⟨_, hstage, _⟩
      · exact Or.inl hi
      · exact Or.inr (by simp [closed.stage])
      · exact Or.inr (by simp [hstage])
    next => simp at hhands
  | defers he _ hhands =>
    cases he
    rw [given] at hhands
    split at hhands
    next => simp at hhands
    next h => exact Or.inr ⟨h, fun hp => by simp [step?, hp] at hs, rfl⟩
  | passes _ _ he _ | finishes he => simp at he
  | operates _ hx _ => simp [operates?] at hx

theorem step_turn (hs : r.step? today input = some r') (hb : r.beat? input = some .turn) :
    r.phase = .head ∧ ∃ request deferred, r.session.stage = .loggedIn ∧
      r.session.deferred = request :: deferred ∧
      r' = { session := ({ r.session with deferred } : Session).handle request } := by
  cases beats_of_beat hb with
  | turn hp htakes =>
    refine ⟨hp, ?_⟩
    obtain ⟨s, phase⟩ := r
    subst hp
    obtain rfl : r' = atHead s := (Option.some.inj hs).symm
    rcases atHead_cases s with ⟨s', request, htakes, hr⟩ | ⟨hn, _⟩
    · unfold takesUp? at htakes
      split at htakes
      next hready =>
        split at htakes
        next other deferred hd =>
          obtain ⟨rfl, rfl⟩ := Prod.mk.inj (Option.some.inj htakes)
          exact ⟨other, deferred, hready.2, hd, hr⟩
        next => simp at htakes
      next => simp at htakes
    · exact absurd hn htakes

theorem alike_of_requeue (before : r₁.session.outline = r₂.session.outline)
    (after : (r₁'.session.requeue []).outline = (r₂'.session.requeue []).outline)
    (queue : (∀ outcome, beat = .notice outcome → ¬r₁.session.AsksPassword outcome) →
      r₁'.session.transport.queue = r₂'.session.transport.queue)
    (password : ∀ outcome, beat = .notice outcome → r₁.session.AsksPassword outcome →
      r₁'.session.transport.queue = [.writeLine ("PASS " ++ secret₁.text), .readLine] ∧
        r₂'.session.transport.queue = [.writeLine ("PASS " ++ secret₂.text), .readLine]) :
    Pulse.Alike secret₁ secret₂ ⟨day₁, beat, ⟨r₁, input₁, r₁'⟩⟩ ⟨day₂, beat, ⟨r₂, input₂, r₂'⟩⟩ := by
  have hbefore : r₁.session.news = r₂.session.news := by
    simpa using congrArg (fun s => s.news) before
  have hafter : r₁'.session.news = r₂'.session.news := by
    simpa [Session.requeue] using congrArg (fun s => s.news) after
  refine ⟨rfl, by rw [Move.told, Move.told, hbefore, hafter], ?_, ?_, ?_, ?_, queue, password⟩
  · simpa [Session.requeue] using congrArg (fun s => s.stage) after
  · simpa [Session.requeue] using congrArg (fun s => s.connecting) after
  · simpa [Session.requeue] using congrArg (fun s => s.listing) after
  · simpa [Session.requeue] using congrArg (fun s => s.deferred) after

theorem alike_of_outline (before : r₁.session.outline = r₂.session.outline)
    (after : r₁'.session.outline = r₂'.session.outline)
    (calm : ∀ outcome, beat = .notice outcome → ¬r₁.session.AsksPassword outcome) :
    Pulse.Alike secret₁ secret₂ ⟨day₁, beat, ⟨r₁, input₁, r₁'⟩⟩ ⟨day₂, beat, ⟨r₂, input₂, r₂'⟩⟩ := by
  refine alike_of_requeue before ?_ (fun _ => ?_) fun outcome hb asks => absurd asks (calm outcome hb)
  · rw [Session.requeue_outline, Session.requeue_outline, after]
  · simpa using congrArg (fun s => s.transport.queue) after

theorem alike_at_head {s₁ s₂ : Session} (before : r₁.session.outline = r₂.session.outline)
    (after : Session.Guise.outlined.session s₁ = Session.Guise.outlined.session s₂)
    (calm : ∀ outcome, beat = .notice outcome → ¬r₁.session.AsksPassword outcome) :
    outline { session := s₁ } = outline { session := s₂ } ∧
      Pulse.Alike secret₁ secret₂ ⟨day₁, beat, ⟨r₁, input₁, { session := s₁ }⟩⟩
        ⟨day₂, beat, ⟨r₂, input₂, { session := s₂ }⟩⟩ :=
  ⟨outline_head after, alike_of_outline before (Session.outline_congr after) calm⟩

theorem request_alike {p₁ p₂ : Profile} {w₁ w₂ : Wire} {request : Request}
    (matched₁ : r₁.Matches p₁ w₁) (matched₂ : r₂.Matches p₂ w₂) (same : r₁.outline = r₂.outline)
    (hs₁ : r₁.step? today (.request request) = some r₁')
    (hs₂ : r₂.step? today (.request request) = some r₂') :
    r₁'.outline = r₂'.outline ∧ Pulse.Alike secret₁ secret₂
      ⟨today, .request request, ⟨r₁, .request request, r₁'⟩⟩
      ⟨today, .request request, ⟨r₂, .request request, r₂'⟩⟩ := by
  rw [outline_of_beat rfl hs₁, outline_of_beat rfl hs₂] at same
  obtain ⟨stance, before⟩ := Prod.mk.inj same
  rcases step_request matched₁ hs₁ with ⟨h₁, rest₁, rfl⟩ | ⟨h₁, hne₁, rfl⟩
  · rcases step_request matched₂ hs₂ with ⟨_, rest₂, rfl⟩ | ⟨h₂, _, _⟩
    · refine alike_at_head before ?_ fun _ => nofun
      rw [Session.handle_outline request rest₁, Session.handle_outline request rest₂, before]
    · rw [stance] at h₁
      exact absurd h₁ h₂
  · rcases step_request matched₂ hs₂ with ⟨h₂, _, _⟩ | ⟨_, hne₂, rfl⟩
    · rw [stance] at h₁
      exact absurd h₂ h₁
    · have after : ({ r₁.session with deferred := r₁.session.deferred ++ [request] } : Session).outline =
          ({ r₂.session with deferred := r₂.session.deferred ++ [request] } : Session).outline := by
        rw [Session.defer_outline, Session.defer_outline, before]
      refine ⟨?_, alike_of_outline before after fun _ => nofun⟩
      exact (outline_phase _ _ hne₁).trans ((Prod.ext stance after).trans (outline_phase _ _ hne₂).symm)

theorem step_close (hs : r.step? today .close = some r') : r' = finish r.session := by
  cases step_turns hs with
  | handles hhands => simp [hands_close] at hhands
  | defers he _ _ | passes _ _ he _ => simp at he
  | operates watch hx _ => simp [operates?] at hx
  | finishes _ => rfl

theorem close_alike (same : r₁.outline = r₂.outline)
    (hs₁ : r₁.step? day₁ .close = some r₁') (hs₂ : r₂.step? day₂ .close = some r₂') :
    r₁'.outline = r₂'.outline ∧ Pulse.Alike secret₁ secret₂ ⟨day₁, .close, ⟨r₁, .close, r₁'⟩⟩
      ⟨day₂, .close, ⟨r₂, .close, r₂'⟩⟩ := by
  rw [outline_of_beat rfl hs₁, outline_of_beat rfl hs₂] at same
  have before := (Prod.mk.inj same).2
  obtain rfl := step_close hs₁
  obtain rfl := step_close hs₂
  have after : (finish r₁.session).session.outline = (finish r₂.session).session.outline := by
    simp only [finish, Session.disconnect_outline, before]
  refine ⟨?_, alike_of_outline before after fun _ => nofun⟩
  have over₁ := outline_phase (finish r₁.session).session .over nofun
  have over₂ := outline_phase (finish r₂.session).session .over nofun
  exact over₁.trans ((congrArg (Prod.mk Stance.over) after).trans over₂.symm)

theorem turn_alike (same : r₁.outline = r₂.outline)
    (hs₁ : r₁.step? day₁ input₁ = some r₁') (hs₂ : r₂.step? day₂ input₂ = some r₂')
    (hb₁ : r₁.beat? input₁ = some .turn) (hb₂ : r₂.beat? input₂ = some .turn) :
    r₁'.outline = r₂'.outline ∧ Pulse.Alike secret₁ secret₂ ⟨day₁, .turn, ⟨r₁, input₁, r₁'⟩⟩
      ⟨day₂, .turn, ⟨r₂, input₂, r₂'⟩⟩ := by
  rw [outline_of_beat hb₁ hs₁, outline_of_beat hb₂ hs₂] at same
  have before := (Prod.mk.inj same).2
  obtain ⟨_, request₁, deferred₁, stage₁, hd₁, rfl⟩ := step_turn hs₁ hb₁
  obtain ⟨_, request₂, deferred₂, stage₂, hd₂, rfl⟩ := step_turn hs₂ hb₂
  have plain : Session.Guise.outlined.session r₁.session = Session.Guise.outlined.session r₂.session := by
    rw [← Session.outline_of_ne (by simp [stage₁]), before, Session.outline_of_ne (by simp [stage₂])]
  have hdeferred : r₁.session.deferred = r₂.session.deferred := congrArg (fun s => s.deferred) plain
  rw [hd₁, hd₂] at hdeferred
  obtain ⟨rfl, rfl⟩ := List.cons.inj hdeferred
  refine alike_at_head before ?_ fun _ => nofun
  rw [Session.Guise.session_handle, Session.Guise.session_handle]
  exact congrArg (fun s : Session => ({ s with deferred := deferred₁ } : Session).handle request₁) plain

/-- A handshake succeeds, or it ends the connection. -/
theorem shaking_outcome {t : Transport} {outcome : Notice} (matched : r.Matches p w) (sound : w.Sound p)
    (hx : r.operates? input = some (t, .done (some outcome))) (hs : r.session.stage = .awaitingHandshake) :
    outcome = .handshakeDone ∨ ∃ message fatal, outcome = .error message fatal := by
  have meets := matched.meets sound hx
  generalize he : (t, Progress.done (some outcome)) = x at meets
  cases meets with
  | waits | passes => simp at he
  | written _ hn => exact absurd hs hn
  | fails t' message =>
    cases he
    exact Or.inr ⟨_, _, rfl⟩
  | connected _ hn _ _ | passedOver _ _ _ hn _ => simp [hs] at hn
  | secured t' _ _ =>
    cases he
    exact Or.inl rfl
  | reads _ _ hn _ => exact absurd hs hn

/-- The session sends its password, whatever it is, and goes on like any other. -/
theorem step_asking {secret : Argument} {hasRoots : Bool} {earlier : List Move} {t : Transport}
    {outcome : Notice} (run : Run (start (p.withPassword secret) hasRoots) earlier r)
    (hs : r.step? today input = some r') (hx : r.operates? input = some (t, .done (some outcome)))
    (asks : r.session.AsksPassword outcome) :
    ∃ line, outcome = .line line ∧ t.outline = r.session.transport.outline ∧
      r' = { session := Session.gives { r.session with transport := t } line secret } := by
  obtain ⟨w, wires, matched⟩ := run_matches run
  obtain ⟨w', _, matched'⟩ := run_matches (run.next hs)
  obtain ⟨watch, hr, _⟩ := settle_of_operates hx hs
  have hphase : r.phase ≠ .over := fun hp => by simp [operates?, hp] at hx
  have ht : t.outline = r.session.transport.outline := by
    obtain ⟨_, line, code, rfl, _⟩ := asks
    cases operates_shifts matched hx with
    | tells _ ht => exact ht
  have hopen : t.isOpen = true := by
    rw [← Session.Guise.outlined.isOpen, show Session.Guise.outlined.transport t = t.outline from rfl, ht]
    have hstands := matched.isOpen wires.sound hphase (by simp [asks.1]) (by simp [asks.1])
    exact (Session.Guise.outlined.isOpen _).trans hstands
  obtain ⟨line, hline, hnotice⟩ := Session.notice_asking (s := { r.session with transport := t }) today
    asks hopen (congrArg Profile.password matched.1.profile)
  have hr' : r' = { session := ({ r.session with transport := t } : Session).notice today outcome } := hr
  rw [hnotice] at hr'
  refine ⟨line, hline, ht, ?_⟩
  -- Behind the command only its reply is queued, so nothing was queued before it.
  have hempty : t.queue = [] := by
    rw [hr'] at matched'
    obtain ⟨_, rests⟩ := matched'
    dsimp only [Session.requeue] at rests
    generalize hq : t.queue ++ [Operation.writeLine ("PASS " ++ secret.text)] ++ [.readLine] = ops at rests
    have hlength := congrArg List.length hq
    cases rests <;> simp at hlength
    assumption
  rw [hr', Session.requeue]
  dsimp only
  rw [hempty]
  rfl

theorem notice_alike {hasRoots₁ hasRoots₂ : Bool} {earlier₁ earlier₂ : List Move} {t₁ t₂ : Transport}
    {outcome : Notice} (run₁ : Run (start (p.withPassword secret₁) hasRoots₁) earlier₁ r₁)
    (run₂ : Run (start (p.withPassword secret₂) hasRoots₂) earlier₂ r₂) (same : r₁.outline = r₂.outline)
    (hs₁ : r₁.step? today input₁ = some r₁') (hs₂ : r₂.step? today input₂ = some r₂')
    (hx₁ : r₁.operates? input₁ = some (t₁, .done (some outcome)))
    (hx₂ : r₂.operates? input₂ = some (t₂, .done (some outcome))) :
    r₁'.outline = r₂'.outline ∧ Pulse.Alike secret₁ secret₂
      ⟨today, .notice outcome, ⟨r₁, input₁, r₁'⟩⟩ ⟨today, .notice outcome, ⟨r₂, input₂, r₂'⟩⟩ := by
  obtain ⟨_, hr₁, _, hout₁⟩ := settle_of_operates hx₁ hs₁
  obtain ⟨_, hr₂, _, hout₂⟩ := settle_of_operates hx₂ hs₂
  rw [hout₁, hout₂] at same
  have before := (Prod.mk.inj same).2
  have stage : r₁.session.stage = r₂.session.stage := by
    simpa using congrArg (fun s => s.stage) before
  by_cases asks : r₁.session.AsksPassword outcome
  · have asks₂ : r₂.session.AsksPassword outcome := ⟨stage ▸ asks.1, asks.2⟩
    obtain ⟨line, rfl, ht₁, rfl⟩ := step_asking run₁ hs₁ hx₁ asks
    obtain ⟨_, hline, ht₂, rfl⟩ := step_asking run₂ hs₂ hx₂ asks₂
    cases hline
    have hne : ∀ {s : Session}, s.AsksPassword (.line line) → s.stage ≠ .awaitingHandshake := fun h => by
      simp [h.1]
    have plain := before
    rw [Session.outline_of_ne (hne asks), Session.outline_of_ne (hne asks₂)] at plain
    have given := (Session.outlined_transport ht₁).trans (plain.trans (Session.outlined_transport ht₂).symm)
    have after := fun queue => Session.gives_outline line secret₁ secret₂ queue given
    refine ⟨?_, alike_of_requeue before (after []) (fun calm => absurd asks (calm _ rfl)) ?_⟩
    · rw [outline_cons rfl, outline_cons rfl, after]
    · rintro outcome hb -
      exact ⟨rfl, rfl⟩
  · obtain ⟨w₁, wires₁, matched₁⟩ := run_matches run₁
    obtain ⟨w₂, wires₂, matched₂⟩ := run_matches run₂
    have given : Session.Guise.outlined.session { r₁.session with transport := t₁ } =
        Session.Guise.outlined.session { r₂.session with transport := t₂ } := by
      cases operates_shifts matched₁ hx₁ with
      | tells _ ht₁ =>
        cases operates_shifts matched₂ hx₂ with
        | tells _ ht₂ =>
          rw [Session.shift_outline ht₁ (shaking_outcome matched₁ wires₁.sound hx₁),
            Session.shift_outline ht₂ (shaking_outcome matched₂ wires₂.sound hx₂), before]
    obtain rfl := hr₁
    obtain rfl := hr₂
    refine alike_at_head before ?_ fun other hb => ?_
    · have calm₁ : ¬({ r₁.session with transport := t₁ } : Session).AsksPassword outcome := asks
      have calm₂ : ¬({ r₂.session with transport := t₂ } : Session).AsksPassword outcome :=
        fun h => asks ⟨stage.trans h.1, h.2⟩
      have hnotice₁ := Session.Guise.outlined.session_notice today outcome fun h => absurd h calm₁
      have hnotice₂ := Session.Guise.outlined.session_notice today outcome fun h => absurd h calm₂
      exact hnotice₁.trans ((congrArg (fun s => Session.notice today s outcome) given).trans hnotice₂.symm)
    · cases hb
      exact asks

theorem head_of_turning (h : r.phase.stance = .turning) : r.phase = .head := by
  cases hp : r.phase with
  | head => rfl
  | idle | «over» => simp [hp, Phase.stance] at h
  | ready op watch | waiting wait watch => cases watch <;> simp [hp, Phase.stance] at h

theorem turn_iff (hs : r.step? today input = some r') (hb : r.beat? input = some beat) :
    beat = .turn ↔ r.outline.1 = .turning := by
  rw [outline_of_beat hb hs]
  constructor
  · rintro rfl
    exact congrArg Phase.stance (step_turn hs hb).1
  · intro hstance
    have hp := head_of_turning hstance
    cases beats_of_beat hb with
    | turn => rfl
    | request | close => simp [step?, hp] at hs
    | notice hx => simp [operates?, hp] at hx

theorem beat_alike {hasRoots₁ hasRoots₂ : Bool} {earlier₁ earlier₂ : List Move}
    (run₁ : Run (start (p.withPassword secret₁) hasRoots₁) earlier₁ r₁)
    (run₂ : Run (start (p.withPassword secret₂) hasRoots₂) earlier₂ r₂) (same : r₁.outline = r₂.outline)
    (hs₁ : r₁.step? day₁ input₁ = some r₁') (hs₂ : r₂.step? day₂ input₂ = some r₂')
    (hb₁ : r₁.beat? input₁ = some beat) (hb₂ : r₂.beat? input₂ = some beat)
    (hday : beat = .turn ∨ day₁ = day₂) :
    r₁'.outline = r₂'.outline ∧ Pulse.Alike secret₁ secret₂
      ⟨day₁, beat, ⟨r₁, input₁, r₁'⟩⟩ ⟨day₂, beat, ⟨r₂, input₂, r₂'⟩⟩ := by
  obtain ⟨_, _, matched₁⟩ := run_matches run₁
  obtain ⟨_, _, matched₂⟩ := run_matches run₂
  cases beats_of_beat hb₁ with
  | turn => exact turn_alike same hs₁ hs₂ hb₁ hb₂
  | request request =>
    obtain rfl := hday.resolve_left nofun
    cases beats_of_beat hb₂ with
    | request => exact request_alike matched₁ matched₂ same hs₁ hs₂
  | notice hx₁ =>
    obtain rfl := hday.resolve_left nofun
    cases beats_of_beat hb₂ with
    | notice hx₂ => exact notice_alike run₁ run₂ same hs₁ hs₂ hx₁ hx₂
  | close =>
    cases beats_of_beat hb₂ with
    | close => exact close_alike same hs₁ hs₂

/-- How beats lead a session from one state to another, with nothing but silent steps between them. -/
inductive Paced (first : Runner) : Runner → List Pulse → Runner → Prop
  | rest {r last} : last.outline = r.outline → Paced first r [] last
  | pulse {r last earlier today beat m pulses} : Run first earlier m.before →
      m.before.outline = r.outline → m.before.step? today m.input = some m.after →
      m.before.beat? m.input = some beat → Paced first m.after pulses last →
      Paced first r (⟨today, beat, m⟩ :: pulses) last

theorem Paced.of_outline {first last : Runner} {xs : List Pulse} (paced : Paced first r' xs last)
    (h : r'.outline = r.outline) : Paced first r xs last := by
  cases paced with
  | rest same => exact .rest (same.trans h)
  | pulse run same hs hb more => exact .pulse run (same.trans h) hs hb more

theorem paced_of_play {hasRoots : Bool} {inputs : List (Date × Input)} {earlier moves : List Move}
    {last : Runner} (run : Run (start p hasRoots) earlier r) (play : r.play inputs = some (moves, last)) :
    Paced (start p hasRoots) r (pulses inputs moves) last := by
  induction inputs generalizing r earlier moves with
  | nil =>
    obtain ⟨rfl, rfl⟩ := Prod.mk.inj (Option.some.inj play)
    exact .rest rfl
  | cons entry inputs ih =>
    obtain ⟨today, input⟩ := entry
    rw [Runner.play] at play
    split at play
    next => simp at play
    next r' hs =>
      obtain ⟨⟨later, final⟩, hplay, he⟩ := Option.map_eq_some_iff.mp play
      obtain ⟨rfl, rfl⟩ := Prod.mk.inj he
      have paced := ih (run.next hs) hplay
      cases hb : r.beat? input with
      | none =>
        have hpulses : pulses ((today, input) :: inputs) (⟨r, input, r'⟩ :: later) = pulses inputs later := by
          simp [pulses, hb]
        rw [hpulses]
        exact paced.of_outline (step_silent run hs hb).1
      | some beat =>
        have hpulses : pulses ((today, input) :: inputs) (⟨r, input, r'⟩ :: later) =
            ⟨today, beat, ⟨r, input, r'⟩⟩ :: pulses inputs later := by
          simp [pulses, hb]
        rw [hpulses]
        exact .pulse run rfl hs hb paced

theorem deliveries_turn (day : Date) (m : Move) (xs : List Pulse) :
    deliveries (⟨day, .turn, m⟩ :: xs) = deliveries xs := by
  simp [deliveries]

theorem deliveries_cons (day : Date) (m : Move) (xs : List Pulse) (h : beat ≠ .turn) :
    deliveries (⟨day, beat, m⟩ :: xs) = (day, beat) :: deliveries xs := by
  simp [deliveries, h]

theorem Paced.still {first last : Runner} {xs : List Pulse} (paced : Paced first r xs last)
    (hstance : r.outline.1 ≠ .turning) (empty : deliveries xs = []) : xs = [] := by
  cases paced with
  | rest _ => rfl
  | @pulse _ _ _ today beat m xs _ same hs hb _ =>
    have hturn : beat ≠ .turn := fun ht => hstance (same ▸ (turn_iff hs hb).mp ht)
    rw [deliveries_cons _ _ _ hturn] at empty
    simp at empty

theorem outline_resting (h : r.phase ≠ .head) : r.outline.1 ≠ .turning := by
  rw [outline_of_ne h]
  exact fun ht => h (head_of_turning ht)

/-- Two sessions that are alike stay so while the same happens to them. -/
theorem Paced.alike {hasRoots₁ hasRoots₂ : Bool} {last₁ last₂ : Runner} {xs₁ xs₂ : List Pulse}
    (paced₁ : Paced (start (p.withPassword secret₁) hasRoots₁) r₁ xs₁ last₁)
    (paced₂ : Paced (start (p.withPassword secret₂) hasRoots₂) r₂ xs₂ last₂)
    (same : r₁.outline = r₂.outline) (delivered : deliveries xs₁ = deliveries xs₂)
    (rests₁ : last₁.phase ≠ .head) (rests₂ : last₂.phase ≠ .head) :
    last₁.outline = last₂.outline ∧ List.Forall₂ (Pulse.Alike secret₁ secret₂) xs₁ xs₂ := by
  induction paced₁ generalizing r₂ xs₂ with
  | rest h₁ =>
    have hstance := outline_resting rests₁
    rw [h₁, same] at hstance
    obtain rfl := paced₂.still hstance delivered.symm
    cases paced₂ with
    | rest h₂ => exact ⟨h₁.trans (same.trans h₂.symm), .nil⟩
  | @pulse _ _ _ day₁ beat₁ m₁ ys₁ run₁ same₁ hs₁ hb₁ more₁ ih =>
    cases paced₂ with
    | rest h₂ =>
      have hstance := outline_resting rests₂
      rw [h₂, ← same] at hstance
      exact absurd ((Paced.pulse run₁ same₁ hs₁ hb₁ more₁).still hstance delivered) (List.cons_ne_nil _ _)
    | @pulse _ _ _ day₂ beat₂ m₂ ys₂ run₂ same₂ hs₂ hb₂ more₂ =>
      have here : m₁.before.outline = m₂.before.outline := same₁.trans (same.trans same₂.symm)
      have hturn : beat₁ = .turn ↔ beat₂ = .turn := by
        rw [turn_iff hs₁ hb₁, turn_iff hs₂ hb₂, here]
      obtain ⟨rfl, hday, hmore⟩ : beat₁ = beat₂ ∧ (beat₁ = .turn ∨ day₁ = day₂) ∧
          deliveries ys₁ = deliveries ys₂ := by
        by_cases h₁ : beat₁ = .turn
        · obtain rfl := h₁
          obtain rfl := hturn.mp rfl
          rw [deliveries_turn, deliveries_turn] at delivered
          exact ⟨rfl, Or.inl rfl, delivered⟩
        · rw [deliveries_cons _ _ _ h₁, deliveries_cons _ _ _ fun h₂ => h₁ (hturn.mpr h₂)] at delivered
          obtain ⟨hfirst, hmore⟩ := List.cons.inj delivered
          obtain ⟨hday, hbeat⟩ := Prod.mk.inj hfirst
          exact ⟨hbeat, Or.inr hday, hmore⟩
      obtain ⟨next, alike⟩ := beat_alike run₁ run₂ here hs₁ hs₂ hb₁ hb₂ hday
      obtain ⟨hlast, more⟩ := ih more₂ next hmore rests₁
      exact ⟨hlast, .cons alike more⟩

/-- Two sessions that differ in their passwords alone tell the same and come to the same when the same
requests reach them, their transports tell them the same, and neither is left in mid-step. Between these
beats a session stays as it is but for its transport. -/
theorem alike_whatever_password (p : Profile) (secret₁ secret₂ : Argument) {hasRoots₁ hasRoots₂ : Bool}
    {inputs₁ inputs₂ : List (Date × Input)} {moves₁ moves₂ : List Move} {last₁ last₂ : Runner}
    (play₁ : (start (p.withPassword secret₁) hasRoots₁).play inputs₁ = some (moves₁, last₁))
    (play₂ : (start (p.withPassword secret₂) hasRoots₂).play inputs₂ = some (moves₂, last₂))
    (delivered : deliveries (pulses inputs₁ moves₁) = deliveries (pulses inputs₂ moves₂))
    (rests₁ : last₁.phase ≠ .head) (rests₂ : last₂.phase ≠ .head) :
    last₁.session.news = last₂.session.news ∧
      List.Forall₂ (Pulse.Alike secret₁ secret₂) (pulses inputs₁ moves₁) (pulses inputs₂ moves₂) ∧
      ∀ m ∈ moves₁ ++ moves₂, m.before.beat? m.input = none →
        ∃ transport, m.after.session = { m.before.session with transport } := by
  have same : (start (p.withPassword secret₁) hasRoots₁).outline =
      (start (p.withPassword secret₂) hasRoots₂).outline := rfl
  obtain ⟨hlast, alike⟩ :=
    (paced_of_play .start play₁).alike (paced_of_play .start play₂) same delivered rests₁ rests₂
  refine ⟨?_, alike, ?_⟩
  · rw [outline_of_ne rests₁, outline_of_ne rests₂] at hlast
    simpa using congrArg (fun s => s.news) (Prod.mk.inj hlast).2
  · intro m hm hb
    rcases List.mem_append.mp hm with hm | hm
    · obtain ⟨_, _, run, hs⟩ := (run_of_play play₁).of_mem hm
      exact (step_silent run hs hb).2
    · obtain ⟨_, _, run, hs⟩ := (run_of_play play₂).of_mem hm
      exact (step_silent run hs hb).2

/-- One password goes out at once, the other in two pieces. -/
theorem login_with_either_password :
    ∃ p secret₁ secret₂ inputs₁ inputs₂ moves₁ moves₂ last₁ last₂,
      (start (Profile.withPassword p secret₁) true).play inputs₁ = some (moves₁, last₁) ∧
      (start (p.withPassword secret₂) true).play inputs₂ = some (moves₂, last₂) ∧
      deliveries (pulses inputs₁ moves₁) = deliveries (pulses inputs₂ moves₂) ∧
      last₁.phase ≠ .head ∧ last₂.phase ≠ .head ∧ moves₁.length ≠ moves₂.length ∧
      last₁.session.news = [.log "Connecting...", .log "Connected.", .connected, .log "220 Ready",
        .log ">>> USER user", .log "331 Password", .log ">>> PASS ****", .log "230 Welcome", .idle,
        .log ">>> STAT -l"] ∧
      last₁.session.news = last₂.session.news ∧
      List.Forall₂ (Pulse.Alike secret₁ secret₂) (pulses inputs₁ moves₁) (pulses inputs₂ moves₂) := by
  let p : Profile :=
    { host := "localhost", username := "user", password := "", authTls := false }
  let day : Date := ⟨2024, 1, 1, by decide⟩
  let text (line : String) (h : line.toList ≠ [] ∧ '\r' ∉ line.toList ∧ '\n' ∉ line.toList) :
    Argument := ⟨line, h.1, h.2⟩
  let secret₁ := text "owl" (by decide)
  let secret₂ := text "a long secret" (by decide)
  let login (sends : List Input) : List Input :=
    Input.welcomed 0 "220 Ready\r\n" ++
      Input.exchanged (.user (text "user" (by decide))) "331 Password\r\n" ++
      [.proceed, .proceed] ++ sends ++ [.proceed, .proceed, .told "230 Welcome\r\n", .proceed, .proceed]
  let inputs₁ := (login [.answer (.took 10)]).map fun input => (day, input)
  let inputs₂ := (login [.answer (.took 4), .answer (.took 16)]).map fun input => (day, input)
  have h : (((start (p.withPassword secret₁) true).play inputs₁).bind fun x =>
      ((start (p.withPassword secret₂) true).play inputs₂).map fun y =>
        (decide (deliveries (pulses inputs₁ x.1) = deliveries (pulses inputs₂ y.1)),
          decide (x.2.phase ≠ .head), decide (y.2.phase ≠ .head),
          decide (x.1.length ≠ y.1.length), x.2.session.news)) =
      some (true, true, true, true, [.log "Connecting...", .log "Connected.", .connected,
        .log "220 Ready", .log ">>> USER user", .log "331 Password", .log ">>> PASS ****",
        .log "230 Welcome", .idle, .log ">>> STAT -l"]) := by decide +kernel
  obtain ⟨⟨moves₁, last₁⟩, play₁, h⟩ := Option.bind_eq_some_iff.mp h
  obtain ⟨⟨moves₂, last₂⟩, play₂, h⟩ := Option.map_eq_some_iff.mp h
  simp only [Prod.mk.injEq, decide_eq_true_eq] at h
  obtain ⟨delivered, rests₁, rests₂, hlength, news⟩ := h
  obtain ⟨same, alike, _⟩ :=
    alike_whatever_password p secret₁ secret₂ play₁ play₂ delivered rests₁ rests₂
  exact ⟨p, secret₁, secret₂, inputs₁, inputs₂, moves₁, moves₂, last₁, last₂, play₁, play₂, delivered,
    rests₁, rests₂, hlength, news, same, alike⟩

end Runner

end FtpControl

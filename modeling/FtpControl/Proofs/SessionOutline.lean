import FtpControl.Proofs.SessionInvariance
import FtpControl.Proofs.StepEvents

namespace FtpControl

namespace Transport

/-- The transport without what its session never asks for. -/
def outline (t : Transport) : Transport :=
  { t with
    trust := {}
    stream := t.stream.map fun _ => ⟨0, false⟩
    candidates := []
    buffer := [] }

end Transport

def Notice.shift (t : Transport) : Notice → Transport
  | .connected => { t with stream := some ⟨0, false⟩ }
  | .handshakeDone => { t with stream := some ⟨0, false⟩, encrypted := true }
  | .written | .line _ => t
  | .endpointFailed _ exhausted => if exhausted then t else t.pushFront .connect
  | .error _ _ => t.disconnect

namespace Transport

/-- What an operation can have come to, in outline. Some take the stream for a handshake, some have found
addresses to dial. -/
inductive Shifts (shakes finds : Prop) (t : Transport) : Transport × Progress → Prop
  | waits {t' : Transport} (wait : Wait) : t'.outline = t.outline → Shifts shakes finds t (t', .blocked wait)
  | shakes {t' : Transport} (wait : Wait) : shakes → t'.outline = { t.outline with stream := none } →
      Shifts shakes finds t (t', .blocked wait)
  | finds {t' : Transport} : finds → t'.outline = t.outline.pushFront .connect →
      Shifts shakes finds t (t', .done none)
  | tells {t' : Transport} (outcome : Notice) : t'.outline = outcome.shift t.outline →
      Shifts shakes finds t (t', .done (some outcome))

variable {t : Transport} {shakes finds shakes' finds' : Prop}

theorem Shifts.imp {x : Transport × Progress} (h : Shifts shakes finds t x) (hs : shakes → shakes')
    (hf : finds → finds') : Shifts shakes' finds' t x := by
  cases h with
  | waits wait h => exact .waits wait h
  | shakes wait hshakes h => exact .shakes wait (hs hshakes) h
  | finds hfinds h => exact .finds (hf hfinds) h
  | tells outcome h => exact .tells outcome h

theorem Shifts.of_buffer {x : Transport × Progress} {buffer : List UInt8}
    (h : Shifts shakes finds { t with buffer } x) : Shifts shakes finds t x := by
  cases h with
  | waits wait h => exact .waits wait h
  | shakes wait hshakes h => exact .shakes wait hshakes h
  | finds hfinds h => exact .finds hfinds h
  | tells outcome h => exact .tells outcome h

theorem fatal_shifts (t : Transport) (message : String) : Shifts shakes finds t (t.fatal message) :=
  .tells (.error message true) rfl

variable {x : Transport × Progress}

theorem ReadsOn.shifts (h : ReadsOn t x) : Shifts shakes finds t x := by
  cases h with
  | line _ _ => exact .tells (.line _) rfl
  | fails message => exact fatal_shifts t message
  | waits _ _ _ => exact .waits _ rfl

theorem begin_shifts (t : Transport) (op : Operation) : Shifts (op = .handshake) False t (t.begin op) := by
  have begins := t.begin_begins op
  generalize t.begin op = x at begins ⊢
  cases begins with
  | looksUp | dials _ | transmits _ _ => exact .waits _ rfl
  | negotiates _ _ _ => exact .shakes _ rfl rfl
  | reads reads => exact reads.shifts
  | fails _ message => exact fatal_shifts t message

theorem resume_shifts {wait : Wait} {answer : Answer} (hx : t.resume wait answer = some x) :
    Shifts False (∃ host port, wait = .lookup host port) t x := by
  cases resume_resumes hx with
  | finds host port _ _ => exact .finds ⟨host, port, rfl⟩ rfl
  | connects _ _ => exact .tells .connected rfl
  | passesOver _ _ _ => exact .tells (.endpointFailed _ false) rfl
  | exhausts _ _ _ => exact .tells (.endpointFailed _ true) rfl
  | secures _ _ => exact .tells .handshakeDone rfl
  | writes _ _ => exact .tells .written rfl
  | writesOn _ _ => exact .waits _ rfl
  | reads _ _ reads => exact reads.shifts.of_buffer
  | fails _ message _ => exact fatal_shifts t message

end Transport

namespace Session

def Guise.outlined : Guise where
  past := []
  password _ := ""
  transport := Transport.outline
  isOpen t := by simp [Transport.isOpen, Transport.outline]
  encrypted _ := rfl
  disconnect _ := rfl
  connect _ _ _ _ := rfl
  push _ _ := rfl

/-- The outline of a session; a handshake has its stream for itself. -/
def outline (s : Session) : Session :=
  let o := Guise.outlined.session s
  if s.stage = .awaitingHandshake then { o with transport := { o.transport with stream := none } } else o

variable {s s₁ s₂ : Session}

theorem outline_of_ne (h : s.stage ≠ .awaitingHandshake) : s.outline = Guise.outlined.session s :=
  if_neg h

/-- The outline leaves out nothing but the password and what the session never asks its transport for. -/
theorem outline_eq (s : Session) :
    ∃ stream, s.outline =
      { Guise.outlined.session s with transport := { s.transport.outline with stream } } := by
  unfold outline
  dsimp only
  split <;> exact ⟨_, rfl⟩

@[simp]
theorem outline_stage (s : Session) : s.outline.stage = s.stage := by
  obtain ⟨_, h⟩ := s.outline_eq
  rw [h]
  rfl

@[simp]
theorem outline_connecting (s : Session) : s.outline.connecting = s.connecting := by
  obtain ⟨_, h⟩ := s.outline_eq
  rw [h]
  rfl

@[simp]
theorem outline_listing (s : Session) : s.outline.listing = s.listing := by
  obtain ⟨_, h⟩ := s.outline_eq
  rw [h]
  rfl

@[simp]
theorem outline_deferred (s : Session) : s.outline.deferred = s.deferred := by
  obtain ⟨_, h⟩ := s.outline_eq
  rw [h]
  rfl

@[simp]
theorem outline_news (s : Session) : s.outline.news = s.news := by
  obtain ⟨_, h⟩ := s.outline_eq
  rw [h]
  rfl

@[simp]
theorem outline_queue (s : Session) : s.outline.transport.queue = s.transport.queue := by
  obtain ⟨_, h⟩ := s.outline_eq
  rw [h]
  rfl

theorem outline_congr (h : Guise.outlined.session s₁ = Guise.outlined.session s₂) :
    s₁.outline = s₂.outline := by
  have hstage : s₁.stage = s₂.stage := congrArg (fun s => s.stage) h
  unfold outline
  rw [h, hstage]

def requeue (s : Session) (queue : List Operation) : Session :=
  { s with transport := { s.transport with queue } }

theorem requeue_outline (s : Session) (queue : List Operation) :
    (s.requeue queue).outline = s.outline.requeue queue := by
  unfold outline requeue
  dsimp only
  split <;> rfl

theorem outlined_transport {t : Transport} (ht : t.outline = s.transport.outline) :
    Guise.outlined.session { s with transport := t } = Guise.outlined.session s :=
  congrArg (fun t => { Guise.outlined.session s with transport := t }) ht

theorem outline_transport {t : Transport} (ht : t.outline = s.transport.outline) :
    ({ s with transport := t } : Session).outline = s.outline :=
  outline_congr (outlined_transport ht)

theorem outline_shaking {t : Transport} (hs : s.stage = .awaitingHandshake)
    (ht : t.outline = { s.transport.outline with stream := none }) :
    ({ s with transport := t } : Session).outline = s.outline := by
  have hstage : ({ s with transport := t } : Session).stage = .awaitingHandshake := hs
  rw [outline, if_pos hstage, outline, if_pos hs]
  exact congrArg (fun t => { Guise.outlined.session s with transport := { t with stream := none } }) ht

theorem handle_outline (request : Request)
    (h : request.interrupts = true ∨ s.stage ≠ .awaitingHandshake) :
    Guise.outlined.session (s.handle request) = s.outline.handle request := by
  rw [Guise.outlined.session_handle]
  by_cases hs : s.stage = .awaitingHandshake
  · have hi := h.resolve_right (not_not_intro hs)
    rw [outline, if_pos hs]
    cases request with
    | connect | disconnect => rfl
    | changeDirectory path | listDirectory => simp [Request.interrupts] at hi
  · rw [outline_of_ne hs]

theorem shift_outline {t : Transport} {outcome : Notice} (ht : t.outline = outcome.shift s.transport.outline)
    (h : s.stage = .awaitingHandshake →
      outcome = .handshakeDone ∨ ∃ message fatal, outcome = .error message fatal) :
    Guise.outlined.session { s with transport := t } =
      { s.outline with transport := outcome.shift s.outline.transport } := by
  by_cases hs : s.stage = .awaitingHandshake
  · rw [outline, if_pos hs]
    rcases h hs with rfl | ⟨message, fatal, rfl⟩
    · simp [Guise.session, Guise.outlined, ht, Notice.shift]
    · simp [Guise.session, Guise.outlined, ht, Notice.shift, Transport.disconnect]
  · rw [outline_of_ne hs]
    simp [Guise.session, Guise.outlined, ht]

end Session

namespace Runner

/-- What the owner and the transport can expect of a session. -/
inductive Stance where
  /-- It takes up what was put off. -/
  | turning
  | idle
  | busy
  | watching
  | over
  deriving DecidableEq, Repr

def Phase.stance : Phase → Stance
  | .head => .turning
  | .idle => .idle
  | .ready _ watch | .waiting _ watch => if watch then .watching else .busy
  | .over => .over

def passed (r : Runner) : Runner :=
  if r.phase = .head ∧ takesUp? r.session = none then atHead r.session else r

def outline (r : Runner) : Stance × Session :=
  (r.passed.phase.stance, r.passed.session.outline)

/-- What brings a session on. -/
inductive Beat where
  /-- It takes up what was put off. -/
  | turn
  | request (request : Request)
  | notice (outcome : Notice)
  /-- No request will come any more. -/
  | close
  deriving DecidableEq, Repr

def beat? (r : Runner) (input : Input) : Option Beat :=
  match input with
  | .request request => some (.request request)
  | .close => some .close
  | .proceed | .answer _ =>
    match r.operates? input with
    | some (_, .done (some outcome)) => some (.notice outcome)
    | some _ => none
    | none => (r.hands? input).map fun _ => .turn

variable {p : Profile} {w : Wire} {r r' : Runner} {s s₁ s₂ : Session} {today : Date} {input : Input}

theorem passed_of_ne (h : r.phase ≠ .head) : r.passed = r :=
  if_neg fun hp => h hp.1

theorem outline_of_ne (h : r.phase ≠ .head) : r.outline = (r.phase.stance, r.session.outline) := by
  rw [outline, passed_of_ne h]

theorem outline_phase (s : Session) (phase : Phase) (h : phase ≠ .head) :
    outline ⟨s, phase⟩ = (phase.stance, s.outline) :=
  outline_of_ne h

theorem atHead_ne (htakes : takesUp? s = none) : (atHead s).phase ≠ .head := by
  unfold takesUp? at htakes
  unfold atHead Transport.next?
  cases hq : s.transport.queue with
  | cons op queue => exact nofun
  | nil =>
    dsimp only
    split
    next hs =>
      rw [if_pos ⟨hq, hs⟩] at htakes
      split
      next request deferred hd => simp [hd] at htakes
      next => split <;> exact nofun
    next => exact nofun

theorem outline_cons {op : Operation} {queue : List Operation} (hq : s.transport.queue = op :: queue) :
    outline { session := s } = (.busy, (s.requeue queue).outline) := by
  have htakes : takesUp? s = none := by simp [takesUp?, hq]
  have hhead : atHead s = { session := s.requeue queue, phase := .ready op false } := by
    simp [atHead, Transport.next?, hq, Session.requeue]
  rw [outline, passed, if_pos ⟨rfl, htakes⟩, hhead]
  rfl

/-- With nothing in the queue a session that is ready takes up what was put off, or it keeps watch. -/
theorem outline_nil (hq : s.transport.queue = []) : outline { session := s } =
    (if s.stage = .loggedIn then
      if s.deferred = [] then if s.transport.isOpen then .watching else .idle else .turning
    else .idle, s.outline) := by
  by_cases hs : s.stage = .loggedIn
  · cases hd : s.deferred with
    | nil =>
      have htakes : takesUp? s = none := by simp [takesUp?, hd]
      rw [outline, passed, if_pos ⟨rfl, htakes⟩, atHead]
      simp only [Transport.next?, hq, hs, hd, ↓reduceIte]
      split <;> rfl
    | cons request deferred =>
      have htakes : takesUp? s ≠ none := by simp [takesUp?, hq, hs, hd]
      rw [outline, passed, if_neg fun h => htakes h.2, if_pos hs]
      rfl
  · have htakes : takesUp? s = none := by simp [takesUp?, hs]
    rw [outline, passed, if_pos ⟨rfl, htakes⟩, atHead]
    simp only [Transport.next?, hq, hs, ↓reduceIte]
    rfl

theorem outline_head (h : Session.Guise.outlined.session s₁ = Session.Guise.outlined.session s₂) :
    outline { session := s₁ } = outline { session := s₂ } := by
  have hqueue : s₁.transport.queue = s₂.transport.queue :=
    congrArg (fun s => s.transport.queue) h
  cases hq : s₂.transport.queue with
  | cons op queue =>
    rw [outline_cons (hqueue.trans hq), outline_cons hq, Session.requeue_outline,
      Session.requeue_outline, Session.outline_congr h]
  | nil =>
    have hstage : s₁.stage = s₂.stage := congrArg (fun s => s.stage) h
    have hdeferred : s₁.deferred = s₂.deferred := congrArg (fun s => s.deferred) h
    have hopen : s₁.transport.isOpen = s₂.transport.isOpen := by
      have ho := congrArg (fun s => s.transport.isOpen) h
      simpa [Session.Guise.outlined.isOpen] using ho
    rw [outline_nil (hqueue.trans hq), outline_nil hq, hstage, hdeferred, hopen,
      Session.outline_congr h]

/-- Only a session that waits for its handshake gives its stream away, and only one that dials finds
addresses. -/
theorem operates_shifts {x : Transport × Progress} (matched : r.Matches p w)
    (hx : r.operates? input = some x) : Transport.Shifts (r.session.stage = .awaitingHandshake)
      (r.phase.stance = .busy) r.session.transport x := by
  obtain ⟨s, phase⟩ := r
  obtain ⟨_, matched⟩ := matched
  unfold operates? at hx
  split at hx
  next op watch hp =>
    cases hx
    dsimp only at hp matched ⊢
    subst hp
    refine (s.transport.begin_shifts op).imp ?_ False.elim
    rintro rfl
    cases watch with
    | true => simp at matched
    | false =>
      dsimp only at matched
      generalize hops : Operation.handshake :: s.transport.queue = ops at matched
      cases matched with
      | shaking _ hs _ => exact hs
      | _ => simp at hops
  next wait watch answer hp =>
    dsimp only at hp matched hx ⊢
    subst hp
    refine (Transport.resume_shifts hx).imp False.elim ?_
    rintro ⟨host, port, rfl⟩
    dsimp only at matched
    generalize s.transport.queue = queue at matched
    cases matched with
    | lookup => rfl
  next => simp at hx

theorem settle_of_operates {x : Transport × Progress} (hx : r.operates? input = some x)
    (hs : r.step? today input = some r') :
    ∃ watch, r' = settle today r.session watch x ∧
      r.phase.stance = (if watch then .watching else .busy) ∧
      r.outline = (if watch then .watching else .busy, r.session.outline) := by
  obtain ⟨s, phase⟩ := r
  unfold operates? at hx
  split at hx
  next op watch hp =>
    cases hx
    dsimp only at hp
    subst hp
    exact ⟨watch, (Option.some.inj hs).symm, rfl, outline_of_ne nofun⟩
  next wait watch answer hp =>
    dsimp only at hp hx
    subst hp
    have hsettle : (s.transport.resume wait answer).map (settle today s watch) = some r' := hs
    rw [hx] at hsettle
    exact ⟨watch, (Option.some.inj hsettle).symm, rfl, outline_of_ne nofun⟩
  next => simp at hx

theorem beat_of_operates {x : Transport × Progress} (hx : r.operates? input = some x) :
    r.beat? input = match x.2 with
      | .done (some outcome) => some (.notice outcome)
      | _ => none := by
  cases input with
  | request | close => simp [operates?] at hx
  | proceed | answer =>
    simp only [beat?, hx]
    obtain ⟨t, progress⟩ := x
    cases progress with
    | blocked wait => rfl
    | done notice => cases notice <;> rfl

inductive Beats (r : Runner) : Input → Beat → Prop
  | turn : r.phase = .head → takesUp? r.session ≠ none → Beats r .proceed .turn
  | request (request : Request) : Beats r (.request request) (.request request)
  | notice {input : Input} {t : Transport} {outcome : Notice} :
      r.operates? input = some (t, .done (some outcome)) → Beats r input (.notice outcome)
  | close : Beats r .close .close

theorem beats_of_beat {beat : Beat} (hb : r.beat? input = some beat) : r.Beats input beat := by
  cases hx : r.operates? input with
  | some x =>
    obtain ⟨t, progress⟩ := x
    rw [beat_of_operates hx] at hb
    split at hb
    next outcome hprogress =>
      obtain rfl : progress = .done (some outcome) := hprogress
      obtain rfl := Option.some.inj hb
      exact .notice hx
    next => simp at hb
  | none =>
    cases input with
    | request request =>
      obtain rfl := Option.some.inj hb
      exact .request request
    | close =>
      obtain rfl := Option.some.inj hb
      exact .close
    | answer answer =>
      obtain ⟨s, phase⟩ := r
      cases phase <;> simp [beat?, hx, hands?] at hb
    | proceed =>
      obtain ⟨s, phase⟩ := r
      cases phase with
      | head =>
        obtain ⟨_, htakes, rfl⟩ := Option.map_eq_some_iff.mp hb
        exact .turn rfl (Option.ne_none_iff_exists'.mpr ⟨_, htakes⟩)
      | idle | ready | waiting | «over» => simp [beat?, hx, hands?] at hb

/-- Between beats nothing changes but the transport, and that not in outline. -/
theorem step_silent {hasRoots : Bool} {earlier : List Move} (run : Run (start p hasRoots) earlier r)
    (hs : r.step? today input = some r') (hb : r.beat? input = none) :
    r'.outline = r.outline ∧ ∃ transport, r'.session = { r.session with transport } := by
  obtain ⟨w, _, matched⟩ := run_matches run
  cases hx : r.operates? input with
  | some x =>
    obtain ⟨watch, rfl, hstance, hout⟩ := settle_of_operates hx hs
    rw [beat_of_operates hx] at hb
    rw [hout]
    cases operates_shifts matched hx with
    | @waits t wait ht =>
      refine ⟨?_, t, rfl⟩
      have hwaits := outline_phase { r.session with transport := t } (.waiting wait watch) nofun
      exact hwaits.trans (congrArg (Prod.mk _) (Session.outline_transport ht))
    | @shakes t wait hstage ht =>
      refine ⟨?_, t, rfl⟩
      have hwaits := outline_phase { r.session with transport := t } (.waiting wait watch) nofun
      exact hwaits.trans (congrArg (Prod.mk _) (Session.outline_shaking hstage ht))
    | @finds t hbusy ht =>
      refine ⟨?_, t, rfl⟩
      have hqueue : t.queue = .connect :: r.session.transport.queue := congrArg Transport.queue ht
      have hpopped : ({ t with queue := r.session.transport.queue } : Transport).outline =
          r.session.transport.outline :=
        congrArg (fun t => { t with queue := r.session.transport.queue }) ht
      rw [← hstance, hbusy]
      change outline { session := { r.session with transport := t } } = _
      rw [outline_cons hqueue]
      exact congrArg (Prod.mk _) (Session.outline_transport hpopped)
    | tells outcome ht => simp at hb
  | none =>
    cases input with
    | request | close => simp [beat?] at hb
    | answer answer =>
      obtain ⟨s, phase⟩ := r
      cases phase with
      | waiting wait watch =>
        have hresume : s.transport.resume wait answer = none := hx
        simp [step?, hresume] at hs
      | head | idle | ready | «over» => simp [step?] at hs
    | proceed =>
      obtain ⟨s, phase⟩ := r
      cases phase with
      | ready op watch => simp [operates?] at hx
      | idle | waiting | «over» => simp [step?] at hs
      | head =>
        have htakes : takesUp? s = none := by simpa [beat?, operates?, hands?] using hb
        obtain rfl : r' = atHead s := (Option.some.inj hs).symm
        refine ⟨?_, ?_⟩
        · rw [outline_of_ne (atHead_ne htakes), outline, passed, if_pos ⟨rfl, htakes⟩]
        · rcases atHead_cases s with ⟨s', request, hsome, _⟩ | ⟨_, queue, phase, hr⟩
          · simp [htakes] at hsome
          · exact ⟨_, congrArg session hr⟩

end Runner

end FtpControl

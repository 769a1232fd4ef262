import FtpControl.Proofs.LoopHead

namespace FtpControl

/-- What an operation can have come to, by what the session waits for. -/
inductive Session.Meets (s : Session) : Transport × Progress → Prop
  | waits (t : Transport) (wait : Wait) : Meets s (t, .blocked wait)
  | passes (t : Transport) : Meets s (t, .done none)
  | written (t : Transport) : s.stage ≠ .awaitingHandshake → Meets s (t.finish .written)
  | fails (t : Transport) (message : String) : Meets s (t.fatal message)
  | connected (t : Transport) : s.stage = .notConnected → s.connecting = true →
      t.isOpen = true → Meets s (t.finish .connected)
  | passedOver (t : Transport) (message : String) (exhausted : Bool) : s.stage = .notConnected →
      s.connecting = true → Meets s (t.finish (.endpointFailed message exhausted))
  | secured (t : Transport) : s.stage = .awaitingHandshake → t.isOpen = true →
      Meets s (t.finish .handshakeDone)
  | reads (bytes : List UInt8) : s.stage ≠ .notConnected → s.stage ≠ .awaitingHandshake →
      s.transport.isOpen = true →
      Meets s ({ s.transport with buffer := s.transport.buffer ++ bytes } : Transport).readOn

namespace Runner

def takesUp? (s : Session) : Option (Session × Request) :=
  if s.transport.queue = [] ∧ s.stage = .loggedIn then
    match s.deferred with
    | request :: deferred => some ({ s with deferred }, request)
    | [] => none
  else none

/-- The request that is handed to the session in a step, and the session that it is handed to. -/
def hands? (r : Runner) (input : Input) : Option (Session × Request) :=
  match r.phase, input with
  | .head, .proceed => takesUp? r.session
  | .idle, .request request => some (r.session, request)
  | .ready _ watch, .request request | .waiting _ watch, .request request =>
    if request.interrupts ∨ watch then some (r.session, request) else none
  | _, _ => none

def operates? (r : Runner) (input : Input) : Option (Transport × Progress) :=
  match r.phase, input with
  | .ready op _, .proceed => some (r.session.transport.begin op)
  | .waiting wait _, .answer answer => r.session.transport.resume wait answer
  | _, _ => none

/-- What a step can be. -/
inductive Turns (today : Date) (r : Runner) (input : Input) : Runner → Prop
  /-- A request is handled. -/
  | handles {s : Session} {request : Request} : r.hands? input = some (s, request) →
      Turns today r input { session := s.handle request }
  /-- A request is put off. -/
  | defers {request : Request} : input = .request request → request.interrupts = false →
      r.hands? input = none → Turns today r input
        { r with session := { r.session with deferred := r.session.deferred ++ [request] } }
  /-- An operation begins or goes on. -/
  | operates {x : Transport × Progress} (watch : Bool) : r.operates? input = some x →
      r.hands? input = none → Turns today r input (settle today r.session watch x)
  /-- The session turns to its next operation, or keeps watch, or has nothing to do. -/
  | passes (queue : List Operation) (phase : Phase) : input = .proceed → r.hands? input = none →
      Turns today r input
        { session := { r.session with transport := { r.session.transport with queue } }, phase }
  | finishes : input = .close → Turns today r input (finish r.session)

variable {p : Profile} {w : Wire} {r r' : Runner} {today : Date} {input : Input}

theorem atHead_cases (s : Session) :
    (∃ s' request, takesUp? s = some (s', request) ∧ atHead s = { session := s'.handle request }) ∨
      takesUp? s = none ∧ ∃ queue phase,
        atHead s = { session := { s with transport := { s.transport with queue } }, phase } := by
  obtain ⟨profile, stage, connecting, transport, listing, deferred, news⟩ := s
  unfold atHead takesUp? Transport.next?
  cases hq : transport.queue with
  | cons op queue => exact Or.inr ⟨by simp, _, _, rfl⟩
  | nil =>
    by_cases hstage : stage = .loggedIn
    · simp only [hstage, and_self, ↓reduceIte]
      cases deferred with
      | cons request deferred => exact Or.inl ⟨_, request, rfl, rfl⟩
      | nil =>
        refine Or.inr ⟨rfl, ?_⟩
        dsimp only
        split
        next => exact ⟨_, _, rfl⟩
        next => exact ⟨_, _, rfl⟩
    · simp only [hstage, and_false, ↓reduceIte]
      exact Or.inr ⟨trivial, _, _, rfl⟩

theorem interrupt_cases (r : Runner) (watch : Bool) (request : Request) :
    (request.interrupts = true ∨ watch = true) ∧
        r.interrupt watch request = { session := r.session.handle request } ∨
      ¬(request.interrupts = true ∨ watch = true) ∧ r.interrupt watch request =
        { r with session := { r.session with deferred := r.session.deferred ++ [request] } } := by
  unfold interrupt
  split
  next h => exact Or.inl ⟨h, rfl⟩
  next h => exact Or.inr ⟨h, rfl⟩

theorem step_turns (hs : r.step? today input = some r') : r.Turns today input r' := by
  obtain ⟨s, phase⟩ := r
  have interrupted : ∀ {watch request}, input = .request request →
      ((∃ op, phase = .ready op watch) ∨ ∃ wait, phase = .waiting wait watch) →
      r' = interrupt ⟨s, phase⟩ watch request → Turns today ⟨s, phase⟩ input r' := by
    rintro watch request rfl hp rfl
    have hhands : hands? ⟨s, phase⟩ (.request request) =
        if request.interrupts ∨ watch then some (s, request) else none := by
      rcases hp with ⟨op, rfl⟩ | ⟨wait, rfl⟩ <;> rfl
    rcases interrupt_cases ⟨s, phase⟩ watch request with ⟨h, hr⟩ | ⟨h, hr⟩
    · rw [hr]
      exact .handles (by rw [hhands, if_pos h])
    · have hi : request.interrupts = false := by simpa using (not_or.mp h).1
      rw [hr]
      exact .defers rfl hi (by rw [hhands, if_neg h])
  unfold step? at hs
  dsimp only at hs
  split at hs
  next =>
    cases hs
    rcases atHead_cases s with ⟨s', request, htakes, hr⟩ | ⟨htakes, queue, phase, hr⟩
    · rw [hr]
      exact .handles htakes
    · rw [hr]
      exact .passes queue phase rfl htakes
  next op watch =>
    cases hs
    exact .operates watch rfl rfl
  next request =>
    cases hs
    exact .handles rfl
  next op watch request => exact interrupted rfl (Or.inl ⟨op, rfl⟩) (Option.some.inj hs).symm
  next wait watch request => exact interrupted rfl (Or.inr ⟨wait, rfl⟩) (Option.some.inj hs).symm
  next wait watch answer =>
    obtain ⟨x, hx, rfl⟩ := Option.map_eq_some_iff.mp hs
    exact .operates watch hx rfl
  next =>
    cases hs
    exact .finishes rfl
  next =>
    cases hs
    exact .finishes rfl
  next =>
    cases hs
    exact .finishes rfl
  next => simp at hs

theorem step_of_operates {x : Transport × Progress} (today : Date) (hx : r.operates? input = some x) :
    ∃ watch, r.step? today input = some (settle today r.session watch x) := by
  obtain ⟨s, phase⟩ := r
  unfold operates? at hx
  dsimp only at hx
  split at hx
  next op watch =>
    cases hx
    exact ⟨watch, rfl⟩
  next wait watch answer => exact ⟨watch, congrArg (Option.map _) hx⟩
  next => simp at hx

theorem hands_request {request other : Request} {s : Session}
    (h : r.hands? (.request request) = some (s, other)) : s = r.session ∧ other = request := by
  have watched : ∀ {watch : Bool}, (if request.interrupts ∨ watch then some (r.session, request)
      else none) = some (s, other) → s = r.session ∧ other = request := by
    intro watch hif
    split at hif
    next =>
      obtain ⟨rfl, rfl⟩ := Prod.mk.inj (Option.some.inj hif)
      exact ⟨rfl, rfl⟩
    next => simp at hif
  obtain ⟨t, phase⟩ := r
  cases phase with
  | head | «over» => simp [hands?] at h
  | idle =>
    obtain ⟨rfl, rfl⟩ := Prod.mk.inj (Option.some.inj h)
    exact ⟨rfl, rfl⟩
  | ready op watch | waiting wait watch => exact watched h

/-- A request that interrupts is handled wherever it comes. -/
theorem step_interrupting {request : Request} (hi : request.interrupts = true)
    (hs : r.step? today (.request request) = some r') :
    r' = { session := r.session.handle request } := by
  cases step_turns hs with
  | handles hhands =>
    obtain ⟨rfl, rfl⟩ := hands_request hhands
    rfl
  | defers he hn _ =>
    cases he
    simp [hi] at hn
  | operates watch hx _ => simp [operates?] at hx
  | passes _ _ he _ | finishes he => simp at he

/-- A request is handed over when it interrupts, when it is its turn, or when nothing is under way. -/
theorem hands_cases {s : Session} {request : Request} (matched : r.Matches p w)
    (h : r.hands? input = some (s, request)) :
    input = .request request ∧ s = r.session ∧ request.interrupts = true ∨
    input = .request request ∧ s = r.session ∧ r.session.Closed ∨
    request.interrupts = false ∧ r.session.stage = .loggedIn ∧ s = { r.session with deferred := s.deferred } ∧
      (input = .proceed ∧ r.session.deferred = request :: s.deferred ∨
        input = .request request ∧ r.session.deferred = [] ∧ s.deferred = []) := by
  have watched : ∀ {other watch}, ((∃ op, r.phase = .ready op watch) ∨
      ∃ wait, r.phase = .waiting wait watch) → input = .request other →
      (if other.interrupts ∨ watch then some (r.session, other) else none) = some (s, request) →
      input = .request request ∧ s = r.session ∧ request.interrupts = true ∨
      request.interrupts = false ∧ r.session.stage = .loggedIn ∧
        s = { r.session with deferred := s.deferred } ∧
        input = .request request ∧ r.session.deferred = [] ∧ s.deferred = [] := by
    rintro other watch hp rfl hif
    split at hif
    next hor =>
      obtain ⟨rfl, rfl⟩ := Prod.mk.inj (Option.some.inj hif)
      cases hi : other.interrupts with
      | true => exact Or.inl ⟨rfl, rfl, rfl⟩
      | false =>
        have hw : watch = true := by simpa [hi] using hor
        subst hw
        obtain ⟨⟨link, _, reads⟩, _⟩ := watching matched hp
        obtain ⟨stage, _, deferred⟩ := reads.idle rfl
        exact Or.inr ⟨rfl, stage, rfl, rfl, deferred, deferred⟩
    next => simp at hif
  unfold hands? at h
  split at h
  next hp =>
    unfold takesUp? at h
    split at h
    next hready =>
      split at h
      next other deferred hd =>
        obtain ⟨rfl, rfl⟩ := Prod.mk.inj (Option.some.inj h)
        refine Or.inr (Or.inr ⟨?_, hready.2, rfl, Or.inl ⟨rfl, hd⟩⟩)
        exact matched.1.deferred other (by rw [hd]; exact List.mem_cons_self)
      next => simp at h
    next => simp at h
  next other hp =>
    obtain ⟨rfl, rfl⟩ := Prod.mk.inj (Option.some.inj h)
    obtain ⟨_, fits⟩ := matched
    rw [hp] at fits
    exact Or.inr (Or.inl ⟨rfl, rfl, fits.1⟩)
  next op watch other hp =>
    rcases watched (Or.inl ⟨op, hp⟩) rfl h with h | ⟨hi, hs, he, h⟩
    · exact Or.inl h
    · exact Or.inr (Or.inr ⟨hi, hs, he, Or.inr h⟩)
  next wait watch other hp =>
    rcases watched (Or.inr ⟨wait, hp⟩) rfl h with h | ⟨hi, hs, he, h⟩
    · exact Or.inl h
    · exact Or.inr (Or.inr ⟨hi, hs, he, Or.inr h⟩)
  next => simp at h

/-- An operation comes to nothing but what fits the stage of the session. -/
theorem Matches.meets {x : Transport × Progress} (matched : r.Matches p w) (sound : w.Sound p)
    (hx : r.operates? input = some x) : r.session.Meets x := by
  obtain ⟨s, phase⟩ := r
  obtain ⟨_, matched⟩ := matched
  have reads : ∀ {link watch} (bytes : List UInt8), s.Reads link watch → (Wire.live link).Sound p →
      s.Meets ({ s.transport with buffer := s.transport.buffer ++ bytes } : Transport).readOn := by
    intro link watch bytes h fits
    have hopen : s.transport.isOpen = true := by simp [Transport.isOpen, h.uses.carries.stream]
    cases watch with
    | true => exact .reads bytes (by simp [(h.idle rfl).1]) (by simp [(h.idle rfl).1]) hopen
    | false =>
      rw [Wire.Sound, h.due rfl] at fits
      obtain ⟨awaiting, handshake⟩ := fits.stage_cases
      exact .reads bytes (fun hs => by simp [hs, Stage.isAwaiting] at awaiting) handshake hopen
  have begins : ∀ {link watch}, s.Reads link watch → (Wire.live link).Sound p →
      s.Meets s.transport.readOn := by
    intro link watch h fits
    simpa using reads [] h fits
  unfold operates? at hx
  split at hx
  next op watch hp =>
    cases hx
    dsimp only at hp matched
    subst hp
    cases watch with
    | true =>
      obtain ⟨rfl, link, rfl, h⟩ := matched
      exact begins h sound
    | false =>
      dsimp only at matched
      generalize hops : op :: s.transport.queue = ops at matched
      cases matched with
      | closed w closed => simp at hops
      | ready uses hs standing => simp at hops
      | resolving w dialling hc =>
        obtain ⟨rfl, _⟩ := List.cons.inj hops
        exact .waits _ _
      | dialling w dialling hc =>
        obtain ⟨rfl, _⟩ := List.cons.inj hops
        obtain ⟨endpoint, candidates, hcs⟩ := List.exists_cons_of_ne_nil hc
        simp only [Transport.begin, Transport.dialNext, hcs]
        exact .waits _ _
      | @shaking link uses hs hg =>
        obtain ⟨rfl, _⟩ := List.cons.inj hops
        have hplain : link.stream.secure = false := by
          rw [Wire.Sound, hg] at sound
          exact sound.2
        rcases Transport.beginHandshake_cases uses.carries.stream hplain with
          ⟨name, hb⟩ | ⟨t, message, hb⟩
        · simp only [Transport.begin, hb]
          exact .waits _ _
        · simp only [Transport.begin, hb]
          exact .fails _ _
      | sending uses permits =>
        obtain ⟨rfl, _⟩ := List.cons.inj hops
        simp only [Transport.begin, Transport.beginWrite, uses.carries.stream]
        exact .waits _ _
      | reading uses due =>
        obtain ⟨rfl, hq⟩ := List.cons.inj hops
        have h : s.Reads _ false := ⟨uses, hq, fun _ => due, (by simp)⟩
        exact begins h sound
  next wait watch answer hp =>
    dsimp only at hp matched hx
    subst hp
    dsimp only at matched
    generalize s.transport.queue = queue at matched
    cases matched with
    | lookup w host port dialling hc =>
      rcases Transport.resume_lookup hx with ⟨endpoints, rfl⟩ | ⟨message, rfl⟩
      · unfold Transport.resolved
        dsimp only
        split
        next => exact .fails _ _
        next => exact .passes _
      · exact .fails _ _
    | dial w endpoint dialling =>
      rcases Transport.resume_dial hx with ⟨c, rfl, rfl⟩ | ⟨_, ⟨message, rfl⟩ | ⟨message, rfl⟩⟩
      · exact .connected _ dialling.stage dialling.connecting rfl
      · exact .passedOver _ _ _ dialling.stage dialling.connecting
      · exact .fails _ _
    | negotiate name stage =>
      rcases Transport.resume_negotiate hx with ⟨rfl, rfl⟩ | ⟨_, message, rfl⟩
      · exact .secured _ stage rfl
      · exact .fails _ _
    | transmit connecting carries due =>
      rcases Transport.resume_transmit hx with ⟨count, rfl, rfl⟩ | ⟨_, message, rfl⟩
      · split
        next =>
          rw [Wire.Sound, due] at sound
          exact .written _ sound.stage_cases.2
        next => exact .waits _ _
      · exact .fails _ _
    | receive h =>
      rcases Transport.resume_receive hx with ⟨chunk, rfl, rfl⟩ | ⟨_, message, rfl⟩
      · exact reads chunk.bytes h sound
      · exact .fails _ _
  next => simp at hx

end Runner

end FtpControl

import FtpControl.Proofs.SessionInvariance
import FtpControl.Proofs.ListingEvents

namespace FtpControl

namespace Session

def Guise.behind (past : List Event) : Guise where
  past
  password text := text
  transport t := t
  isOpen _ := rfl
  encrypted _ := rfl
  disconnect _ := rfl
  connect _ _ _ _ := rfl
  push _ _ := rfl

def Guise.trusting (trust : Trust) : Guise where
  past := []
  password text := text
  transport t := { t with trust }
  isOpen _ := rfl
  encrypted _ := rfl
  disconnect _ := rfl
  connect _ _ _ _ := rfl
  push _ _ := rfl

theorem handle_trust (s : Session) (request : Request) :
    (s.handle request).transport.trust = s.transport.trust := by
  have h := (Guise.trusting s.transport.trust).session_handle (s := s) request
  exact (congrArg (fun t => t.transport.trust) h).symm

theorem notice_trust (today : Date) (s : Session) (outcome : Notice) :
    (s.notice today outcome).transport.trust = s.transport.trust := by
  have h := (Guise.trusting s.transport.trust).session_notice (s := s) today outcome fun _ => rfl
  exact (congrArg (fun t => t.transport.trust) h).symm

end Session

namespace Runner

variable {p : Profile} {r r' : Runner} {today : Date} {input : Input}

theorem operates_settings {x : Transport × Progress} (hx : r.operates? input = some x) :
    x.1.settings = r.session.transport.settings := by
  unfold operates? at hx
  split at hx
  next op _ _ =>
    cases hx
    exact Transport.begin_settings _ op
  next => exact Transport.resume_settings hx
  next => simp at hx

theorem step_trust (hs : r.step? today input = some r') :
    r'.session.transport.trust = r.session.transport.trust := by
  cases step_turns hs with
  | handles hhands =>
    obtain ⟨deferred, rfl⟩ := hands_session hhands
    exact Session.handle_trust _ _
  | defers _ _ _ | passes _ _ _ _ | finishes _ => rfl
  | @operates x watch hx _ =>
    have htrust := congrArg Prod.fst (operates_settings hx)
    obtain ⟨t, progress⟩ := x
    cases progress with
    | blocked wait => exact htrust
    | done notice =>
      cases notice with
      | none => exact htrust
      | some outcome => exact (Session.notice_trust today _ outcome).trans htrust

theorem run_trust {hasRoots : Bool} {moves : List Move} (run : Run (start p hasRoots) moves r) :
    r.session.transport.trust = (start p hasRoots).session.transport.trust := by
  induction run with
  | start => rfl
  | next _ hs ih => exact (step_trust hs).trans ih

def behind (past : List Event) (r : Runner) : Runner :=
  { r with session := (Session.Guise.behind past).session r.session }

theorem settle_behind (past : List Event) (today : Date) (s : Session) (watch : Bool)
    (x : Transport × Progress) :
    settle today ((Session.Guise.behind past).session s) watch x = (settle today s watch x).behind past := by
  obtain ⟨t, progress⟩ := x
  cases progress with
  | blocked wait => rfl
  | done notice =>
    cases notice with
    | none => rfl
    | some outcome =>
      have h := (Session.Guise.behind past).session_notice (s := { s with transport := t }) today outcome
        fun _ => rfl
      exact congrArg (fun s => ({ session := s } : Runner)) h.symm

theorem atHead_behind (past : List Event) (s : Session) :
    atHead ((Session.Guise.behind past).session s) = (atHead s).behind past := by
  unfold atHead
  rw [show ((Session.Guise.behind past).session s).transport.next? = s.transport.next? from rfl]
  cases s.transport.next? with
  | some next => rfl
  | none =>
    dsimp only
    rw [Session.Guise.session_stage, Session.Guise.session_deferred]
    split
    next =>
      cases hd : s.deferred with
      | cons request deferred =>
        have h := (Session.Guise.behind past).session_handle (s := { s with deferred }) request
        exact congrArg (fun s => ({ session := s } : Runner)) h.symm
      | nil =>
        dsimp only
        rw [show ((Session.Guise.behind past).session s).transport.isOpen = s.transport.isOpen from rfl]
        split <;> rfl
    next => rfl

theorem interrupt_behind (past : List Event) (r : Runner) (watch : Bool) (request : Request) :
    (r.behind past).interrupt watch request = (r.interrupt watch request).behind past := by
  unfold interrupt
  split
  next =>
    have h := (Session.Guise.behind past).session_handle (s := r.session) request
    exact congrArg (fun s => ({ session := s } : Runner)) h.symm
  next => rfl

theorem step_behind (past : List Event) (r : Runner) (today : Date) (input : Input) :
    (r.behind past).step? today input = (r.step? today input).map (behind past) := by
  obtain ⟨s, phase⟩ := r
  have handled : ∀ request : Request,
      some ({ session := ((Session.Guise.behind past).session s).handle request } : Runner) =
        some (behind past { session := s.handle request }) := fun request => by
    rw [← (Session.Guise.behind past).session_handle]
    rfl
  have interrupted := fun watch request => congrArg some (interrupt_behind past ⟨s, phase⟩ watch request)
  cases phase with
  | head =>
    cases input with
    | proceed => exact congrArg some (atHead_behind past s)
    | request | answer | close => rfl
  | idle =>
    cases input with
    | request request => exact handled request
    | proceed | answer | close => rfl
  | ready op watch =>
    cases input with
    | proceed => exact congrArg some (settle_behind past today s watch _)
    | request request => exact interrupted watch request
    | answer | close => rfl
  | waiting wait watch =>
    cases input with
    | request request => exact interrupted watch request
    | answer answer =>
      change (s.transport.resume wait answer).map (settle today _ watch) =
        ((s.transport.resume wait answer).map (settle today s watch)).map (behind past)
      rw [Option.map_map]
      exact congrArg (fun f => (s.transport.resume wait answer).map f)
        (funext fun x => settle_behind past today s watch x)
    | proceed | close => rfl
  | «over» => cases input <;> rfl

/-- What shows of a step: what is told, what is done on the connection, how far the session has come
and what it waits for. -/
structure Glimpse where
  told : List Event
  deeds : List Deed
  stage : Stage
  phase : Phase
  deriving DecidableEq, Repr

def Move.glimpse (m : Move) : Glimpse :=
  ⟨m.told, m.deeds, m.after.session.stage, m.after.phase⟩

/-- What shows while these inputs come, if they can come. -/
def glimpses (r : Runner) (inputs : List (Date × Input)) : Option (List Glimpse) :=
  (r.play inputs).map fun x => x.1.map Move.glimpse

theorem glimpses_cons (r : Runner) (today : Date) (input : Input) (inputs : List (Date × Input)) :
    r.glimpses ((today, input) :: inputs) = (r.step? today input).bind fun r' =>
      (r'.glimpses inputs).map (Move.glimpse ⟨r, input, r'⟩ :: ·) := by
  unfold glimpses
  rw [play]
  cases r.step? today input with
  | none => rfl
  | some r' => simp [Function.comp_def]

theorem glimpse_behind (past : List Event) (r : Runner) (input : Input) (r' : Runner) :
    Move.glimpse ⟨r.behind past, input, r'.behind past⟩ = Move.glimpse ⟨r, input, r'⟩ := by
  have htold : Move.told ⟨r.behind past, input, r'.behind past⟩ = Move.told ⟨r, input, r'⟩ := by
    change (past ++ r'.session.news).drop (past ++ r.session.news).length =
      r'.session.news.drop r.session.news.length
    simp
  rw [Move.glimpse, htold]
  rfl

/-- What was told before makes no difference to what shows from here on. -/
theorem glimpses_behind (past : List Event) (r : Runner) (inputs : List (Date × Input)) :
    (r.behind past).glimpses inputs = r.glimpses inputs := by
  induction inputs generalizing r with
  | nil => rfl
  | cons entry inputs ih =>
    obtain ⟨today, input⟩ := entry
    rw [glimpses_cons, glimpses_cons, step_behind]
    cases r.step? today input with
    | none => rfl
    | some r' =>
      simp only [Option.map_some, Option.bind_some]
      rw [ih, glimpse_behind]

/-- A new session that is connected, with this navigation put off. -/
def connected (p : Profile) (hasRoots : Bool) (deferred : List Request) : Runner :=
  { session := { (start p hasRoots).session.handle .connect with deferred } }

theorem play_start (p : Profile) (hasRoots : Bool) (today : Date) :
    ∃ moves, (start p hasRoots).play [(today, .proceed), (today, .request .connect)] =
      some (moves, connected p hasRoots []) :=
  ⟨_, rfl⟩

/-- Whatever the session has been doing, after a connect only what it has told and what it has put off
are left of it. -/
theorem opened_eq {hasRoots : Bool} {moves : List Move} {opened : Runner}
    (run : Run (start p hasRoots) moves r) (connect : r.step? today (.request .connect) = some opened) :
    opened = (connected p hasRoots r.session.deferred).behind r.session.news := by
  obtain ⟨w, _, matched⟩ := run_matches run
  have hprofile := matched.1.profile
  have htrust := run_trust run
  rw [step_interrupting rfl connect]
  simp [Session.handle, Session.beginConnect, Session.log, Session.emit, Transport.connect,
    Transport.disconnect, behind, Session.Guise.session, Session.Guise.behind, connected, hprofile,
    htrust, start, Session.create]

def looking (p : Profile) (hasRoots : Bool) (deferred : List Request) : Runner :=
  let s := (connected p hasRoots deferred).session
  ⟨{ s with transport := { s.transport with queue := [] } }, .ready .resolve false⟩

theorem step_connected (p : Profile) (hasRoots : Bool) (deferred : List Request) (today : Date) :
    (connected p hasRoots deferred).step? today .proceed = some (looking p hasRoots deferred) := rfl

theorem play_looking (hasRoots : Bool) (today : Date) {asked : List Request}
    (navigation : ∀ request ∈ asked, request.interrupts = false) (deferred : List Request) :
    ∃ moves, (looking p hasRoots deferred).play (asked.map fun request => (today, .request request)) =
      some (moves, looking p hasRoots (deferred ++ asked)) := by
  induction asked generalizing deferred with
  | nil => exact ⟨[], by rw [List.append_nil]; rfl⟩
  | cons request asked ih =>
    obtain ⟨moves, hplay⟩ := ih (fun other ho => navigation other (List.mem_cons_of_mem _ ho))
      (deferred ++ [request])
    have hi := navigation request List.mem_cons_self
    have hstep : (looking p hasRoots deferred).step? today (.request request) =
        some (looking p hasRoots (deferred ++ [request])) := by
      change some (interrupt _ false request) = _
      unfold interrupt
      rw [if_neg (by simp [hi])]
      rfl
    rw [List.append_assoc] at hplay
    exact ⟨_, play_of_step hstep hplay⟩

/-- A session that is connected again shows what a new session shows that is connected, if nothing
has been put off. What has been put off is left: the session goes on like a new one that is asked for
all of it anew as soon as it is connected, and it begins what was put off behind what the profile asks
for. -/
theorem connect_starts_over {hasRoots : Bool} {moves : List Move} {opened : Runner}
    (run : Run (start p hasRoots) moves r) (connect : r.step? today (.request .connect) = some opened) :
    ∃ first fresh, (start p hasRoots).play [(today, .proceed), (today, .request .connect)] =
        some (first, fresh) ∧
      (r.session.deferred = [] → ∀ inputs, opened.glimpses inputs = fresh.glimpses inputs) ∧
      (∃ again waits waiting, opened.step? today .proceed = some again ∧
        fresh.play ((today, .proceed) :: r.session.deferred.map fun request =>
          (today, .request request)) = some (waits, waiting) ∧
        ∀ inputs, again.glimpses inputs = waiting.glimpses inputs) ∧
      ∀ later r', Run opened later r' →
        ((∀ m ∈ later.dropLast, m.ends = false) →
          Desk.begun (journal later) <+: p.automatic ++ r.session.deferred ++ Desk.asked (journal later)) ∧
        ((∀ m ∈ later, m.ends = false) → .idle ∈ Desk.told (journal later) →
          Desk.begun (journal later) ++ r'.session.deferred =
            p.automatic ++ r.session.deferred ++ Desk.asked (journal later)) := by
  obtain ⟨w, _, matched⟩ := run_matches run
  obtain ⟨first, hfresh⟩ := play_start p hasRoots today
  have hopened := opened_eq run connect
  have hdeferred : opened.session.deferred = r.session.deferred := by rw [hopened]; rfl
  have hstart := run.next connect
  have hfits : Desk.Post.login.Fits opened.session.connecting opened.session.stage := by
    rw [hopened]
    exact ⟨rfl, rfl⟩
  refine ⟨first, connected p hasRoots [], hfresh, ?_, ?_, ?_⟩
  · intro empty inputs
    rw [hopened, empty, glimpses_behind]
  · obtain ⟨waits, hwaits⟩ := play_looking (p := p) hasRoots today matched.1.deferred []
    have hagain : opened.step? today .proceed =
        some ((looking p hasRoots r.session.deferred).behind r.session.news) := by
      rw [hopened, step_behind, step_connected]
      rfl
    exact ⟨_, _, _, hagain, play_of_step (step_connected p hasRoots [] today) hwaits,
      fun inputs => glimpses_behind _ _ inputs⟩
  · intro later r' segment
    rw [← hdeferred]
    refine ⟨segment_order hstart hfits segment, fun whole hidle => ?_⟩
    obtain ⟨post, _, runs⟩ := segment_tally hstart hfits segment whole
    have hready : post ≠ .login := fun hp => (runs.tally.1 hp).1 hidle
    exact (runs.tally.2 hready).2

/-- A session that is connected again while its password goes out. -/
theorem new_login_in_mid_login :
    ∃ p moves r today opened first fresh, Run (start p true) moves r ∧
      r.session.stage = .awaitingPass ∧ r.step? today (.request .connect) = some opened ∧
      (start p true).play [(today, .proceed), (today, .request .connect)] = some (first, fresh) ∧
      ∀ inputs, opened.glimpses inputs = fresh.glimpses inputs := by
  let p : Profile :=
    { host := "localhost", username := "user", password := "secret", authTls := false }
  let day : Date := ⟨2024, 1, 1, by decide⟩
  let name : Argument := ⟨"user", by decide, by decide⟩
  let inputs := Input.welcomed 0 "220 Ready\r\n" ++
    Input.exchanged (.user name) "331 Password\r\n" ++ [.proceed, .proceed]
  have h : ((rehearse p inputs).bind fun x => (x.2.step? day (.request .connect)).map fun _ =>
      (x.2.session.stage, x.2.session.deferred)) = some (.awaitingPass, []) := by decide +kernel
  obtain ⟨⟨moves, r⟩, hplay, h⟩ := Option.bind_eq_some_iff.mp h
  obtain ⟨opened, connect, h⟩ := Option.map_eq_some_iff.mp h
  obtain ⟨stage, empty⟩ := Prod.mk.inj h
  have run := run_of_play hplay
  obtain ⟨first, fresh, hfresh, same, _⟩ := connect_starts_over run connect
  exact ⟨p, moves, r, day, opened, first, fresh, run, stage, connect, hfresh, same empty⟩

/-- The listing that the profile asks for is put off while the directory changes. A session that is
connected again meanwhile lists twice after the new login, where a new session lists once. -/
theorem listing_twice_after_connect :
    ∃ p moves r today opened first fresh inputs, Run (start p true) moves r ∧
      r.step? today (.request .connect) = some opened ∧
      (start p true).play [(today, .proceed), (today, .request .connect)] = some (first, fresh) ∧
      opened.glimpses inputs ≠ fresh.glimpses inputs ∧
      (opened.glimpses inputs).map (fun shown => (shown.flatMap Glimpse.told).count (.log ">>> STAT -l")) =
        some 2 ∧
      (fresh.glimpses inputs).map (fun shown => (shown.flatMap Glimpse.told).count (.log ">>> STAT -l")) =
        some 1 := by
  let p : Profile :=
    { host := "localhost", username := "user", password := "secret", authTls := false,
      initialDirectory := some "/pub" }
  let day : Date := ⟨2024, 1, 1, by decide⟩
  let text (line : String) (h : line.toList ≠ [] ∧ '\r' ∉ line.toList ∧ '\n' ∉ line.toList) :
    Argument := ⟨line, h.1, h.2⟩
  let login (c : Nat) : List Input := Input.welcomed c "220 Ready\r\n" ++
    Input.exchanged (.user (text "user" (by decide))) "331 Password\r\n" ++
    Input.exchanged (.pass (text "secret" (by decide))) "230 Welcome\r\n" ++ [.proceed]
  let again : List Input := (login 1).drop 2 ++
    Input.exchanged (.cwd (text "/pub" (by decide))) "250 Ok\r\n" ++
    Input.exchanged .pwd "257 \"/pub\"\r\n" ++ [.proceed] ++
    Input.exchanged .statList "211 End\r\n" ++ [.proceed]
  let inputs := again.map fun input => (day, input)
  let listed (r : Runner) := (r.glimpses inputs).map fun shown =>
    (shown.flatMap Glimpse.told).count (.log ">>> STAT -l")
  have h : ((rehearse p (login 0 ++ [.proceed])).bind fun x =>
      (x.2.step? day (.request .connect)).bind fun opened =>
        ((start p true).play [(day, .proceed), (day, .request .connect)]).map fun y =>
          (listed opened, listed y.2)) = some (some 2, some 1) := by decide +kernel
  obtain ⟨⟨moves, r⟩, hplay, h⟩ := Option.bind_eq_some_iff.mp h
  obtain ⟨opened, connect, h⟩ := Option.bind_eq_some_iff.mp h
  obtain ⟨⟨first, fresh⟩, hfresh, h⟩ := Option.map_eq_some_iff.mp h
  obtain ⟨hopened, hnew⟩ := Prod.mk.inj h
  refine ⟨p, moves, r, day, opened, first, fresh, inputs, run_of_play hplay, connect, hfresh, ?_,
    hopened, hnew⟩
  intro same
  have hcounts : listed opened = listed fresh := congrArg (Option.map _) same
  simp [hopened, hnew] at hcounts

end Runner

end FtpControl

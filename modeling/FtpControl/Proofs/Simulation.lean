import FtpControl.Proofs.Coupling
import FtpControl.Proofs.Operations

namespace FtpControl

variable {p : Profile}

namespace Transport

theorem resume_lookup {t : Transport} {host : String} {port : UInt16} {answer : Answer}
    {x : Transport × Progress} (h : t.resume (.lookup host port) answer = some x) :
    (∃ endpoints, x = t.resolved endpoints) ∨ ∃ message, x = t.fatal message := by
  cases answer with
  | found endpoints => exact Or.inl ⟨endpoints, (Option.some.inj h).symm⟩
  | lookupFailed message => exact Or.inr ⟨message, (Option.some.inj h).symm⟩
  | expired => exact Or.inr ⟨_, (Option.some.inj h).symm⟩
  | _ => simp [resume] at h

theorem resume_dial {t : Transport} {endpoint : Endpoint} {answer : Answer}
    {x : Transport × Progress} (h : t.resume (.dial endpoint) answer = some x) :
    (∃ c, answer = .accepted c ∧
      x = { t with stream := some ⟨c, false⟩, candidates := [] }.finish .connected) ∨
    (∀ c, answer ≠ .accepted c) ∧
      ((∃ message, x = t.failOver endpoint message) ∨ ∃ message, x = t.fatal message) := by
  cases answer with
  | accepted c => exact Or.inl ⟨c, rfl, (Option.some.inj h).symm⟩
  | refused message => exact Or.inr ⟨by simp, Or.inl ⟨message, (Option.some.inj h).symm⟩⟩
  | expired => exact Or.inr ⟨by simp, Or.inr ⟨_, (Option.some.inj h).symm⟩⟩
  | _ => simp [resume] at h

theorem resume_negotiate {t : Transport} {c : Nat} {name : ServerName} {answer : Answer}
    {x : Transport × Progress} (h : t.resume (.negotiate c name) answer = some x) :
    (answer = .secured ∧
      x = { t with stream := some ⟨c, true⟩, encrypted := true }.finish .handshakeDone) ∨
    answer ≠ .secured ∧ ∃ message, x = t.fatal message := by
  cases answer with
  | secured => exact Or.inl ⟨rfl, (Option.some.inj h).symm⟩
  | handshakeFailed message => exact Or.inr ⟨by simp, _, (Option.some.inj h).symm⟩
  | _ => simp [resume, Wait.guarded] at h

theorem resume_transmit {t : Transport} {stream : Stream} {rest : List UInt8} {answer : Answer}
    {x : Transport × Progress} (h : t.resume (.transmit stream rest) answer = some x) :
    (∃ count, answer = .took count ∧ x = if (rest.drop count).isEmpty then t.finish .written
      else (t, .blocked (.transmit stream (rest.drop count)))) ∨
    (∀ count, answer ≠ .took count) ∧ ∃ message, x = t.fatal message := by
  cases answer with
  | took count =>
    refine Or.inl ⟨count, rfl, ?_⟩
    simp only [resume] at h
    split at h
    next he => rw [if_pos he]; exact (Option.some.inj h).symm
    next he => rw [if_neg he]; exact (Option.some.inj h).symm
  | writeFailed message => exact Or.inr ⟨by simp, message, (Option.some.inj h).symm⟩
  | expired => exact Or.inr ⟨by simp, _, (Option.some.inj h).symm⟩
  | _ => simp [resume] at h

theorem beginHandshake_cases {t : Transport} {stream : Stream} (hs : t.stream = some stream)
    (plain : stream.secure = false) :
    (∃ name, t.beginHandshake =
      ({ t with stream := none }, .blocked (.negotiate stream.connection name))) ∨
    ∃ t' message, t.beginHandshake = fatal t' message := by
  unfold beginHandshake
  rw [hs]
  simp only [plain, Bool.false_eq_true, ↓reduceIte]
  split
  next => exact Or.inr ⟨_, _, rfl⟩
  next =>
    split
    next => exact Or.inr ⟨_, _, rfl⟩
    next name _ => exact Or.inl ⟨name, rfl⟩

theorem resume_receive {t : Transport} {stream : Stream} {answer : Answer}
    {x : Transport × Progress} (h : t.resume (.receive stream) answer = some x) :
    (∃ chunk, answer = .received chunk ∧ x = { t with buffer := t.buffer ++ chunk.bytes }.readOn) ∨
    (∀ chunk, answer ≠ .received chunk) ∧ ∃ message, x = t.fatal message := by
  cases answer with
  | received chunk => exact Or.inl ⟨chunk, rfl, (Option.some.inj h).symm⟩
  | ended => exact Or.inr ⟨by simp, _, (Option.some.inj h).symm⟩
  | readFailed message => exact Or.inr ⟨by simp, message, (Option.some.inj h).symm⟩
  | _ => simp [resume, Wait.guarded] at h

def settings (t : Transport) : Trust × String × UInt16 × Address.Family :=
  (t.trust, t.host, t.port, t.family)

variable {t : Transport} {x : Transport × Progress}

theorem ReadsOn.settings (h : ReadsOn t x) : x.1.settings = t.settings := by
  cases h with
  | line _ _ | fails _ | waits _ _ _ => rfl

theorem begin_settings (t : Transport) (op : Operation) : (t.begin op).1.settings = t.settings := by
  have begins := t.begin_begins op
  generalize t.begin op = x at begins ⊢
  cases begins with
  | reads reads => exact reads.settings
  | looksUp | dials _ | negotiates _ _ _ | transmits _ _ | fails _ _ => rfl

theorem resume_settings {wait : Wait} {answer : Answer} (h : t.resume wait answer = some x) :
    x.1.settings = t.settings := by
  cases resume_resumes h with
  | reads _ _ reads => exact reads.settings
  | finds _ _ _ _ | connects _ _ | passesOver _ _ _ | exhausts _ _ _ | secures _ _ | writes _ _
  | writesOn _ _ | fails _ _ _ => rfl

end Transport

namespace Session

variable {s : Session} {w : Wire} {link : Link}

theorem Rests.requeue {ops : List Operation} (h : s.Rests w ops) (queue : List Operation) :
    ({ s with transport := { s.transport with queue } } : Session).Rests w ops := by
  have vacant : s.transport.Vacant → ({ s.transport with queue } : Transport).Vacant :=
    fun h => ⟨h.stream, h.buffer⟩
  have uses : ∀ {link}, s.Uses link →
      ({ s with transport := { s.transport with queue } } : Session).Uses link := fun h =>
    ⟨h.connecting, ⟨h.carries.stream, h.carries.encrypted, h.carries.candidates, h.carries.buffer⟩,
      h.unsent⟩
  cases h with
  | closed w h => exact .closed w ⟨h.stage, h.connecting, h.deferred, h.candidates, vacant h.vacant⟩
  | resolving w h hc => exact .resolving w ⟨h.stage, h.connecting, h.encrypted, vacant h.vacant⟩ hc
  | dialling w h hc => exact .dialling w ⟨h.stage, h.connecting, h.encrypted, vacant h.vacant⟩ hc
  | shaking h hs hg => exact .shaking (uses h) hs hg
  | sending h hp => exact .sending (uses h) hp
  | reading h hd => exact .reading (uses h) hd
  | ready h hs hr => exact .ready (uses h) hs hr

theorem Rests.defer {op : Operation} {ops : List Operation} (h : s.Rests w (op :: ops))
    (deferred : List Request) : ({ s with deferred } : Session).Rests w (op :: ops) := by
  cases h with
  | resolving w h hc => exact .resolving w ⟨h.stage, h.connecting, h.encrypted, h.vacant⟩ hc
  | dialling w h hc => exact .dialling w ⟨h.stage, h.connecting, h.encrypted, h.vacant⟩ hc
  | shaking h hs hg => exact .shaking ⟨h.connecting, h.carries, h.unsent⟩ hs hg
  | sending h hp => exact .sending ⟨h.connecting, h.carries, h.unsent⟩ hp
  | reading h hd => exact .reading ⟨h.connecting, h.carries, h.unsent⟩ hd

theorem Waits.defer {wait : Wait} {ops : List Operation} (h : s.Waits w wait false ops)
    (deferred : List Request) : ({ s with deferred } : Session).Waits w wait false ops := by
  cases h with
  | lookup w host port h hc =>
    exact .lookup w host port ⟨h.stage, h.connecting, h.encrypted, h.vacant⟩ hc
  | dial w endpoint h => exact .dial w endpoint ⟨h.stage, h.connecting, h.encrypted, h.vacant⟩
  | negotiate name hs hc ht ha hb hg hu => exact .negotiate name hs hc ht ha hb hg hu
  | transmit hc ht hd => exact .transmit hc ht hd
  | receive h =>
    exact .receive ⟨⟨h.uses.connecting, h.uses.carries, h.uses.unsent⟩, h.queue, h.due, nofun⟩

theorem Reads.listens {watch : Bool} (reads : s.Reads link watch) :
    link.standing.listens = true := by
  cases watch with
  | false =>
    rw [reads.due rfl]
    rfl
  | true =>
    rw [(reads.idle rfl).2.1]
    rfl

theorem Tidy.defer {request : Request} (tidy : s.Tidy p) (hr : request.interrupts = false) :
    ({ s with deferred := s.deferred ++ [request] } : Session).Tidy p := by
  refine ⟨tidy.profile, ?_, tidy.listing⟩
  intro other ho
  rcases List.mem_append.mp ho with ho | ho
  · exact tidy.deferred other ho
  · rw [List.mem_singleton.mp ho]
    exact hr

theorem Tidy.unlisted (tidy : s.Tidy p) (h : s.stage ≠ .awaitingStat) : s.listing = #[] :=
  Classical.byContradiction fun hl => h (tidy.listing hl)

end Session

namespace Runner

variable {s : Session} {w : Wire} {link : Link} {today : Date}

/-- At the head of the loop the session takes up the next operation, or what was put off, or it
keeps watch. -/
theorem atHead_matches (lands : s.Lands p w) : (atHead s).Matches p w := by
  obtain ⟨tidy, rests⟩ := lands
  unfold atHead Transport.next?
  cases hq : s.transport.queue with
  | cons op queue =>
    rw [hq] at rests
    exact ⟨⟨tidy.profile, tidy.deferred, tidy.listing⟩, rests.requeue queue⟩
  | nil =>
    rw [hq] at rests
    cases rests with
    | closed w closed =>
      have hs : s.stage ≠ .loggedIn := by simp [closed.stage]
      dsimp only
      rw [if_neg hs]
      exact ⟨tidy, closed, hq⟩
    | ready uses hs standing =>
      dsimp only
      rw [if_pos hs]
      cases hd : s.deferred with
      | cons request deferred =>
        refine Session.lands_handle_ready request ⟨tidy.profile, ?_, tidy.listing⟩
          ⟨uses.connecting, uses.carries, uses.unsent⟩ hq hs standing
        intro other ho
        exact tidy.deferred other (by rw [hd]; exact List.mem_cons_of_mem _ ho)
      | nil =>
        have hopen : s.transport.isOpen = true := by simp [Transport.isOpen, uses.carries.stream]
        dsimp only
        rw [if_pos hopen]
        exact ⟨tidy, rfl, _, rfl, uses, hq, (by simp), fun _ => ⟨hs, standing, hd⟩⟩

theorem settle_fatal (today : Date) (tidy : s.Tidy p) (watch : Bool) (t : Transport)
    (message : String) (w : Wire) : (settle today s watch (t.fatal message)).Matches p w := by
  have htidy : (({ s with transport := t.disconnect } : Session).log
      ("Connection error: " ++ message)).Tidy p := ⟨tidy.profile, tidy.deferred, tidy.listing⟩
  exact Session.lands_fail htidy message w

theorem readOn_matches (today : Date) {deeds : List Deed} {watch : Bool} (runs : Wire.Runs p deeds (.live link))
    (tidy : s.Tidy p) (reads : s.Reads link watch) :
    ∃ w, Wire.Runs p (deeds ++ Deed.ofBuffer s.stage s.transport.buffer) w ∧
      (settle today s watch s.transport.readOn).Matches p w := by
  have sound := runs.sound
  unfold Transport.readOn Deed.ofBuffer
  cases hl : LineBuffer.takeLine? s.transport.buffer with
  | none =>
    simp only [List.append_nil]
    refine ⟨.live link, runs, ?_⟩
    split
    next => exact settle_fatal today tidy watch _ _ _
    next =>
      rw [reads.uses.carries.stream]
      refine ⟨⟨tidy.profile, tidy.deferred, tidy.listing⟩, ?_⟩
      have hw := Session.Waits.receive reads
      rw [← reads.queue] at hw
      exact hw
  | some found =>
    obtain ⟨line, rest⟩ := found
    dsimp only
    have hstage : s.stage = link.standing.stage := by
      cases watch with
      | false => rw [reads.due rfl]; rfl
      | true => rw [(reads.idle rfl).1, (reads.idle rfl).2.1]; rfl
    rw [reads.uses.carries.buffer] at hl ⊢
    rw [hstage]
    refine ⟨_, runs.next (.heard reads.listens reads.uses.unsent hl), ?_⟩
    let given : Session := { s with transport := { s.transport with buffer := rest } }
    have htidy : given.Tidy p := ⟨tidy.profile, tidy.deferred, tidy.listing⟩
    have huses : given.Uses { link with unread := rest } :=
      ⟨reads.uses.connecting, ⟨reads.uses.carries.stream, reads.uses.carries.encrypted,
        reads.uses.carries.candidates, rfl⟩, reads.uses.unsent⟩
    change (given.handleLine today line).Lands p _
    -- Only a line that is due can move the dialogue.
    cases watch with
    | false => exact Session.lands_handleLine today line htidy huses reads.queue (reads.due rfl) sound
    | true =>
      obtain ⟨hs, hr, _⟩ := reads.idle rfl
      have hunexpected : given.handleLine today line = given.handleUnexpected line := by
        unfold Session.handleLine
        rw [show given.stage = .loggedIn from hs]
      have hstay : ({ link with unread := rest } : Link).move (link.standing.hear line) =
          .live { link with unread := rest } := by
        simp only [hr, Standing.hear, Link.move]
      rw [hunexpected, hstay]
      exact Session.lands_handleUnexpected line htidy huses reads.queue hs hr

/-- An operation that is begun does what the dialogue can do next. -/
theorem begin_matches {deeds : List Deed} {op : Operation} (runs : Wire.Runs p deeds w)
    (tidy : s.Tidy p) (rests : s.Rests w (op :: s.transport.queue)) (r' : Runner)
    (hr : r' = settle today s false (s.transport.begin op)) :
    ∃ w', Wire.Runs p (deeds ++ Move.deeds ⟨⟨s, .ready op false⟩, .proceed, r'⟩) w' ∧
      r'.Matches p w' := by
  generalize hops : op :: s.transport.queue = ops at rests
  cases rests with
  | closed w closed => simp at hops
  | ready uses hs standing => simp at hops
  | resolving w dialling hc =>
    obtain ⟨rfl, hq⟩ := List.cons.inj hops
    refine ⟨w, by simpa [Move.deeds, acts, Move.lost, shaking?] using runs, ?_⟩
    subst hr
    refine ⟨⟨tidy.profile, tidy.deferred, tidy.listing⟩, ?_⟩
    have hw := Session.Waits.lookup w s.transport.host s.transport.port dialling hc
    rw [← hq] at hw
    exact hw
  | dialling w dialling hc =>
    obtain ⟨rfl, hq⟩ := List.cons.inj hops
    refine ⟨w, by simpa [Move.deeds, acts, Move.lost, shaking?] using runs, ?_⟩
    obtain ⟨endpoint, candidates, hcs⟩ := List.exists_cons_of_ne_nil hc
    subst hr
    simp only [Transport.begin, Transport.dialNext, hcs, settle]
    refine ⟨⟨tidy.profile, tidy.deferred, tidy.listing⟩, ?_⟩
    simp only [hq]
    exact .dial w endpoint ⟨dialling.stage, dialling.connecting, dialling.encrypted,
      ⟨dialling.vacant.stream, dialling.vacant.buffer⟩⟩
  | @shaking link uses hs hg =>
    obtain ⟨rfl, hq⟩ := List.cons.inj hops
    have hstream := uses.carries.stream
    have hplain : link.stream.secure = false := by
      have := runs.sound
      rw [Wire.Sound, hg] at this
      exact this.2
    -- The transport gives its stream away to the handshake, or it fails before there is one.
    rcases Transport.beginHandshake_cases hstream hplain with ⟨name, hb⟩ | ⟨t, message, hb⟩
    · have hlink : r' = ⟨{ s with transport := { s.transport with stream := none } },
          .waiting (.negotiate link.stream.connection name) false⟩ := by
        rw [hr, Transport.begin, hb]
        rfl
      subst hlink
      have hlost : Move.deeds ⟨⟨s, .ready .handshake false⟩, .proceed,
          ⟨{ s with transport := { s.transport with stream := none } },
            .waiting (.negotiate link.stream.connection name) false⟩⟩ = [] := by
        simp [Move.deeds, acts, Move.lost, shaking?, hstream]
      rw [hlost, List.append_nil]
      refine ⟨_, runs, ⟨tidy.profile, tidy.deferred, tidy.listing⟩, ?_⟩
      simp only [hq]
      exact .negotiate name hs uses.connecting rfl uses.carries.candidates uses.carries.buffer hg
        uses.unsent
    · have hfatal : r' = settle today s false (t.fatal message) := by rw [hr, Transport.begin, hb]
      subst hfatal
      have hlost : Move.deeds ⟨⟨s, .ready .handshake false⟩, .proceed,
          settle today s false (t.fatal message)⟩ = [.unsecured link.stream.connection] := by
        simp [Move.deeds, acts, Move.lost, shaking?, settle, Transport.fatal, hstream]
      rw [hlost]
      exact ⟨_, runs.next (.unsecured hg uses.unsent), settle_fatal today tidy false t message _⟩
  | @sending link command uses permits =>
    obtain ⟨rfl, hq⟩ := List.cons.inj hops
    have hstream := uses.carries.stream
    have hdeeds : Move.deeds ⟨⟨s, .ready (.writeLine command.line) false⟩, .proceed, r'⟩ =
        [.began link.stream command.line] := by
      simp [Move.deeds, acts, Move.lost, shaking?, hstream]
    rw [hdeeds]
    refine ⟨_, runs.next (.began (by rw [← tidy.profile]; exact permits) uses.unsent), ?_⟩
    subst hr
    simp only [Transport.begin, Transport.beginWrite, hstream, settle]
    refine ⟨⟨tidy.profile, tidy.deferred, tidy.listing⟩, ?_⟩
    simp only [hq]
    exact .transmit uses.connecting
      ⟨hstream, uses.carries.encrypted, uses.carries.candidates, uses.carries.buffer⟩ rfl
  | reading uses due =>
    obtain ⟨rfl, hq⟩ := List.cons.inj hops
    have hdeeds : Move.deeds ⟨⟨s, .ready .readLine false⟩, .proceed, r'⟩ =
        Deed.ofBuffer s.stage s.transport.buffer := by
      simp [Move.deeds, acts, Move.lost, shaking?]
    rw [hdeeds, hr]
    exact readOn_matches today runs tidy ⟨uses, hq, fun _ => due, (by simp)⟩

theorem resolved_matches (tidy : s.Tidy p) (dialling : s.Dialling) (hq : s.transport.queue = [])
    (watch : Bool) (endpoints : List Endpoint) (w : Wire) :
    (settle today s watch (s.transport.resolved endpoints)).Matches p w := by
  unfold Transport.resolved
  dsimp only
  split
  next => exact settle_fatal today tidy watch _ _ w
  next hc =>
    refine ⟨⟨tidy.profile, tidy.deferred, tidy.listing⟩, ?_⟩
    simp only [settle, Transport.pushFront, hq]
    exact .dialling w ⟨dialling.stage, dialling.connecting, dialling.encrypted,
      ⟨dialling.vacant.stream, dialling.vacant.buffer⟩⟩ (by simpa using hc)

theorem failOver_matches (tidy : s.Tidy p) (dialling : s.Dialling) (hq : s.transport.queue = [])
    (watch : Bool) (endpoint : Endpoint) (message : String) (w : Wire) :
    (settle today s watch (s.transport.failOver endpoint message)).Matches p w := by
  unfold Transport.failOver
  cases hc : s.transport.candidates with
  | nil =>
    let logged := "Connection error: " ++ (endpoint.text ++ ": " ++ message)
    have htidy : (((s.log logged).emit (.error logged)).log
        ("Connection error: " ++ "Connection failed.")).Tidy p :=
      ⟨tidy.profile, tidy.deferred, tidy.listing⟩
    exact Session.lands_fail htidy "Connection failed." w
  | cons next candidates =>
    refine ⟨⟨tidy.profile, tidy.deferred, tidy.listing⟩, ?_⟩
    change Session.Rests _ w (.connect :: s.transport.queue)
    rw [hq]
    exact .dialling w ⟨dialling.stage, dialling.connecting, dialling.encrypted,
      ⟨dialling.vacant.stream, dialling.vacant.buffer⟩⟩ (by
        change s.transport.candidates ≠ []
        simp [hc])

theorem connected_matches (tidy : s.Tidy p) (dialling : s.Dialling) (hq : s.transport.queue = [])
    (watch : Bool) (c : Nat) :
    (settle today s watch ({ s.transport with
      stream := some ⟨c, false⟩, candidates := [] }.finish .connected)).Matches p
      (.live { stream := ⟨c, false⟩, standing := .due .awaitingWelcome }) := by
  have unlisted := tidy.unlisted (by simp [dialling.stage])
  let stands : Session := { s with
    stage := .awaitingWelcome
    connecting := false
    transport := { s.transport with stream := some ⟨c, false⟩, candidates := [] }
    news := s.news ++ [.log "Connected."] ++ [.connected] }
  have htidy : stands.Tidy p := ⟨tidy.profile, tidy.deferred, fun h => absurd unlisted h⟩
  exact Session.lands_readNext htidy ⟨rfl, ⟨rfl, dialling.encrypted, rfl, dialling.vacant.buffer⟩, rfl⟩
    hq rfl

theorem handshakeDone_matches (tidy : s.Tidy p) (stage : s.stage = .awaitingHandshake)
    (connecting : s.connecting = false) (candidates : s.transport.candidates = [])
    (buffer : s.transport.buffer = link.unread) (unsent : link.unsent = [])
    (hq : s.transport.queue = []) (watch : Bool) (c : Nat) :
    (settle today s watch ({ s.transport with
      stream := some ⟨c, true⟩, encrypted := true }.finish .handshakeDone)).Matches p
      (.live { link with stream := ⟨c, true⟩, standing := .encrypted }) := by
  have unlisted := tidy.unlisted (by simp [stage])
  let shaken : Session := { s with
    transport := { s.transport with stream := some ⟨c, true⟩, encrypted := true }
    news := s.news ++ [.log "TLS handshake complete."] }
  have htidy : shaken.Tidy p := ⟨tidy.profile, tidy.deferred, fun h => absurd unlisted h⟩
  exact Session.lands_send htidy ⟨connecting, ⟨rfl, rfl, candidates, buffer⟩, unsent⟩ hq unlisted
    .pbszZero

theorem took_matches (tidy : s.Tidy p) (connecting : s.connecting = false)
    (carries : s.transport.Carries link) (due : link.standing = .due s.stage)
    (hq : s.transport.queue = [.readLine]) :
    (settle today s false (if link.unsent.isEmpty then s.transport.finish .written
      else (s.transport, .blocked (.transmit link.stream link.unsent)))).Matches p (.live link) := by
  by_cases he : link.unsent.isEmpty = true
  · rw [if_pos he]
    refine ⟨⟨tidy.profile, tidy.deferred, tidy.listing⟩, ?_⟩
    change Session.Rests _ _ s.transport.queue
    rw [hq]
    exact .reading ⟨connecting, carries, List.isEmpty_iff.mp he⟩ due
  · rw [if_neg he]
    refine ⟨⟨tidy.profile, tidy.deferred, tidy.listing⟩, ?_⟩
    change Session.Waits _ _ _ _ s.transport.queue
    rw [hq]
    exact .transmit connecting carries due

/-- An operation that goes on does what the dialogue can do next. -/
theorem resume_matches {deeds : List Deed} {wait : Wait} {watch : Bool} {answer : Answer}
    {x : Transport × Progress} (runs : Wire.Runs p deeds w) (tidy : s.Tidy p)
    (waits : s.Waits w wait watch s.transport.queue)
    (hx : s.transport.resume wait answer = some x) :
    ∃ w', Wire.Runs p
        (deeds ++ Move.deeds ⟨⟨s, .waiting wait watch⟩, .answer answer, settle today s watch x⟩) w' ∧
      (settle today s watch x).Matches p w' := by
  generalize hq : s.transport.queue = queue at waits
  cases waits with
  | lookup w host port dialling hc =>
    refine ⟨w, by simpa [Move.deeds, acts, Move.lost, shaking?] using runs, ?_⟩
    rcases Transport.resume_lookup hx with ⟨endpoints, rfl⟩ | ⟨message, rfl⟩
    · exact resolved_matches tidy dialling hq false endpoints w
    · exact settle_fatal today tidy false _ message w
  | dial w endpoint dialling =>
    rcases Transport.resume_dial hx with ⟨c, rfl, rfl⟩ | ⟨hne, hfail⟩
    · have hdeeds : Move.deeds ⟨⟨s, .waiting (.dial endpoint) false⟩, .answer (.accepted c),
          settle today s false ({ s.transport with
            stream := some ⟨c, false⟩, candidates := [] }.finish .connected)⟩ = [.opened c] := by
        simp [Move.deeds, acts, Move.lost, shaking?]
      rw [hdeeds]
      exact ⟨_, runs.next (.opened w c), connected_matches tidy dialling hq false c⟩
    · have hacts : acts ⟨s, .waiting (.dial endpoint) false⟩ (.answer answer) = [] := by
        cases answer with
        | accepted c => exact absurd rfl (hne c)
        | _ => rfl
      refine ⟨w, by simpa [Move.deeds, hacts, Move.lost, shaking?] using runs, ?_⟩
      rcases hfail with ⟨message, rfl⟩ | ⟨message, rfl⟩
      · exact failOver_matches tidy dialling hq false endpoint message w
      · exact settle_fatal today tidy false _ message w
  | @negotiate link name stage connecting stream candidates buffer granted unsent =>
    rcases Transport.resume_negotiate hx with ⟨rfl, rfl⟩ | ⟨hne, message, rfl⟩
    · have hdeeds : Move.deeds ⟨⟨s, .waiting (.negotiate link.stream.connection name) false⟩,
          .answer .secured, settle today s false ({ s.transport with
            stream := some ⟨link.stream.connection, true⟩, encrypted := true }.finish
              .handshakeDone)⟩ = [.secured link.stream.connection] := by
        simp [Move.deeds, acts, Move.lost, shaking?]
      rw [hdeeds]
      exact ⟨_, runs.next (.secured granted unsent),
        handshakeDone_matches tidy stage connecting candidates buffer unsent hq false _⟩
    · have hdeeds : Move.deeds ⟨⟨s, .waiting (.negotiate link.stream.connection name) false⟩,
          .answer answer, settle today s false (s.transport.fatal message)⟩ =
          [.unsecured link.stream.connection] := by
        have hacts : acts ⟨s, .waiting (.negotiate link.stream.connection name) false⟩
            (.answer answer) = [] := by
          cases answer with
          | secured => exact absurd rfl hne
          | _ => rfl
        simp [Move.deeds, hacts, Move.lost, shaking?, settle, Transport.fatal, hne]
      rw [hdeeds]
      exact ⟨_, runs.next (.unsecured granted unsent), settle_fatal today tidy false _ message _⟩
  | @transmit link connecting carries due =>
    rcases Transport.resume_transmit hx with ⟨count, rfl, rfl⟩ | ⟨hne, message, rfl⟩
    · have hdeeds : ∀ r', Move.deeds ⟨⟨s, .waiting (.transmit link.stream link.unsent) false⟩,
          .answer (.took count), r'⟩ = [.wrote link.stream (link.unsent.take count)] := fun r' => by
        simp [Move.deeds, acts, Move.lost, shaking?]
      have hsplit : link.unsent = link.unsent.take count ++ link.unsent.drop count :=
        (List.take_append_drop count link.unsent).symm
      rw [hdeeds]
      have hcarries : s.transport.Carries { link with unsent := link.unsent.drop count } :=
        ⟨carries.stream, carries.encrypted, carries.candidates, carries.buffer⟩
      exact ⟨_, runs.next (.wrote hsplit), took_matches tidy connecting hcarries due hq⟩
    · have hacts : acts ⟨s, .waiting (.transmit link.stream link.unsent) false⟩
          (.answer answer) = [] := by
        cases answer with
        | took count => exact absurd rfl (hne count)
        | _ => rfl
      refine ⟨_, by simpa [Move.deeds, hacts, Move.lost, shaking?] using runs,
        settle_fatal today tidy false _ message _⟩
  | @receive link watch reads =>
    rcases Transport.resume_receive hx with ⟨chunk, rfl, rfl⟩ | ⟨hne, message, rfl⟩
    · let given : Session := { s with
        transport := { s.transport with buffer := s.transport.buffer ++ chunk.bytes } }
      have htidy : given.Tidy p := ⟨tidy.profile, tidy.deferred, tidy.listing⟩
      have hreads : given.Reads { link with unread := link.unread ++ chunk.bytes } watch := by
        refine ⟨⟨reads.uses.connecting, ⟨reads.uses.carries.stream, reads.uses.carries.encrypted,
          reads.uses.carries.candidates, ?_⟩, reads.uses.unsent⟩, reads.queue, reads.due, reads.idle⟩
        change s.transport.buffer ++ chunk.bytes = _
        rw [reads.uses.carries.buffer]
      have hnext := runs.next (.received chunk.bytes reads.listens reads.uses.unsent)
      obtain ⟨w', hruns, hmatches⟩ := readOn_matches today hnext htidy hreads
      refine ⟨w', ?_, hmatches⟩
      have hdeeds : ∀ r', Move.deeds ⟨⟨s, .waiting (.receive link.stream) watch⟩,
          .answer (.received chunk), r'⟩ = .received link.stream chunk.bytes ::
            Deed.ofBuffer s.stage (s.transport.buffer ++ chunk.bytes) := fun r' => by
        simp [Move.deeds, acts, Move.lost, shaking?]
      rw [hdeeds, List.append_cons]
      exact hruns
    · have hacts : acts ⟨s, .waiting (.receive link.stream) watch⟩ (.answer answer) = [] := by
        cases answer with
        | received chunk => exact absurd rfl (hne chunk)
        | _ => rfl
      refine ⟨_, by simpa [Move.deeds, hacts, Move.lost, shaking?] using runs,
        settle_fatal today tidy watch _ message _⟩

/-- A handshake that is dropped puts an end to the dialogue. -/
theorem runs_lost {deeds : List Deed} {m : Move} (runs : Wire.Runs p deeds w)
    (matched : m.before.Matches p w) : ∃ w', Wire.Runs p (deeds ++ m.lost) w' := by
  have granted : ∀ c, m.before.shaking? = some c → ∃ link, w = .live link ∧
      link.stream.connection = c ∧ link.standing = .granted .awaitingAuthTls ∧ link.unsent = [] := by
    intro c hc
    obtain ⟨⟨s, phase⟩, input, after⟩ := m
    obtain ⟨tidy, matched⟩ := matched
    unfold shaking? at hc
    split at hc
    next watch hp =>
      dsimp only at hp hc matched
      subst hp
      cases watch with
      | true => exact absurd matched.1 (by simp)
      | false =>
        dsimp only at matched
        generalize hops : Operation.handshake :: s.transport.queue = ops at matched
        cases matched with
        | @shaking link uses hs hg =>
          refine ⟨link, rfl, ?_, hg, uses.unsent⟩
          rw [uses.carries.stream] at hc
          exact Option.some.inj hc
        | _ => simp at hops
    next connection name watch hp =>
      dsimp only at hp hc matched
      subst hp
      dsimp only at matched
      generalize s.transport.queue = ops at matched
      cases matched with
      | @negotiate link _ _ _ _ _ _ hg hu => exact ⟨link, rfl, Option.some.inj hc, hg, hu⟩
    next => simp at hc
  unfold Move.lost
  split
  next c hc =>
    obtain ⟨link, rfl, rfl, hg, hu⟩ := granted c hc
    split
    next => exact ⟨_, by simpa using runs⟩
    next => exact ⟨_, runs.next (.unsecured hg hu)⟩
  next => exact ⟨w, by simpa using runs⟩

theorem watching {r : Runner} (matched : r.Matches p w)
    (hp : (∃ op, r.phase = .ready op true) ∨ ∃ wait, r.phase = .waiting wait true) :
    (∃ link, w = .live link ∧ r.session.Reads link true) ∧ r.shaking? = none := by
  obtain ⟨s, phase⟩ := r
  obtain ⟨tidy, matched⟩ := matched
  rcases hp with ⟨op, hp⟩ | ⟨wait, hp⟩
  · dsimp only at hp matched
    subst hp
    obtain ⟨rfl, reads⟩ := matched
    exact ⟨reads, rfl⟩
  · dsimp only at hp matched
    subst hp
    dsimp only at matched
    generalize s.transport.queue = queue at matched
    cases matched with
    | receive reads => exact ⟨⟨_, rfl, reads⟩, rfl⟩

/-- A request while an operation is under way puts an end to the operation, or it is put off or
answered with the dialogue as it is. -/
theorem interrupt_matches {r : Runner} {watch : Bool} (request : Request) (matched : r.Matches p w)
    (hp : (∃ op, r.phase = .ready op watch) ∨ ∃ wait, r.phase = .waiting wait watch) :
    (∀ w', (r.interrupt watch request).Matches p w') ∨
      (r.interrupt watch request).Matches p w ∧
        (r.interrupt watch request).shaking? = r.shaking? := by
  unfold interrupt
  by_cases hi : request.interrupts = true
  · refine Or.inl fun w' => ?_
    rw [if_pos (Or.inl hi)]
    exact Session.lands_handle_interrupting matched.1 hi w'
  · refine Or.inr ?_
    cases watch with
    | true =>
      obtain ⟨⟨link, rfl, reads⟩, hshaking⟩ := watching matched hp
      obtain ⟨stage, standing, _⟩ := reads.idle rfl
      rw [if_pos (Or.inr rfl), hshaking]
      exact ⟨Session.lands_handle_ready request matched.1 reads.uses reads.queue stage standing, rfl⟩
    | false =>
      have hput : ¬(request.interrupts = true ∨ false = true) := by simp [hi]
      rw [if_neg hput]
      obtain ⟨s, phase⟩ := r
      obtain ⟨tidy, matched⟩ := matched
      have htidy := tidy.defer (by simpa using hi)
      rcases hp with ⟨op, hp⟩ | ⟨wait, hp⟩
      · dsimp only at hp matched
        subst hp
        exact ⟨⟨htidy, Session.Rests.defer matched _⟩, rfl⟩
      · dsimp only at hp matched
        subst hp
        exact ⟨⟨htidy, Session.Waits.defer matched _⟩, rfl⟩

theorem deeds_of_acts_nil {m : Move} (hacts : m.before.acts m.input = []) : m.deeds = m.lost := by
  rw [Move.deeds, hacts, List.nil_append]

theorem lost_of_shaking {m : Move} (h : m.after.shaking? = m.before.shaking?) : m.lost = [] := by
  unfold Move.lost
  rw [h]
  split
  next c hc => rw [if_pos (Or.inl hc)]
  next => rfl

/-- Each step of a session is one of the dialogue, or several. -/
theorem step_matches {deeds : List Deed} {r r' : Runner} {input : Input}
    (runs : Wire.Runs p deeds w) (matched : r.Matches p w) (hs : r.step? today input = some r') :
    ∃ w', Wire.Runs p (deeds ++ Move.deeds ⟨r, input, r'⟩) w' ∧ r'.Matches p w' := by
  have hlost := runs_lost (m := ⟨r, input, r'⟩) runs matched
  -- A request never does anything on the connection itself, and neither does the end.
  have interrupted : ∀ {watch request}, input = .request request →
      ((∃ op, r.phase = .ready op watch) ∨ ∃ wait, r.phase = .waiting wait watch) →
      r' = r.interrupt watch request →
      ∃ w', Wire.Runs p (deeds ++ Move.deeds ⟨r, input, r'⟩) w' ∧ r'.Matches p w' := by
    rintro watch request rfl hp rfl
    have hacts : r.acts (.request request) = [] := by
      rcases hp with ⟨op, hp⟩ | ⟨wait, hp⟩ <;> simp [acts, hp]
    rw [deeds_of_acts_nil hacts]
    rcases interrupt_matches request matched hp with hall | ⟨hsame, hshaking⟩
    · obtain ⟨w', hruns⟩ := hlost
      exact ⟨w', hruns, hall w'⟩
    · rw [lost_of_shaking hshaking, List.append_nil]
      exact ⟨w, runs, hsame⟩
  have finished : input = .close → r' = finish r.session →
      ∃ w', Wire.Runs p (deeds ++ Move.deeds ⟨r, input, r'⟩) w' ∧ r'.Matches p w' := by
    rintro rfl rfl
    have hacts : r.acts .close = [] := by
      unfold acts
      split <;> simp_all
    rw [deeds_of_acts_nil hacts]
    obtain ⟨w', hruns⟩ := hlost
    exact ⟨w', hruns, ⟨matched.1.profile, matched.1.deferred, matched.1.listing⟩, rfl⟩
  obtain ⟨s, phase⟩ := r
  obtain ⟨tidy, fits⟩ := matched
  unfold step? at hs
  split at hs
  next hp =>
    cases hs
    dsimp only at hp fits
    subst hp
    refine ⟨w, ?_, atHead_matches ⟨tidy, fits⟩⟩
    simpa [Move.deeds, acts, Move.lost, shaking?] using runs
  next op watch hp =>
    cases hs
    dsimp only at hp fits
    subst hp
    cases watch with
    | false => exact begin_matches runs tidy fits _ rfl
    | true =>
      obtain ⟨rfl, link, rfl, reads⟩ := fits
      obtain ⟨w', hruns, hmatches⟩ := readOn_matches today runs tidy reads
      refine ⟨w', ?_, hmatches⟩
      simpa [Move.deeds, acts, Move.lost, shaking?] using hruns
  next request hp =>
    cases hs
    dsimp only at hp fits
    subst hp
    refine ⟨w, ?_, Session.lands_handle_closed request tidy fits.1 fits.2 w⟩
    simpa [Move.deeds, acts, Move.lost, shaking?] using runs
  next op watch request hp => exact interrupted rfl (Or.inl ⟨op, hp⟩) (Option.some.inj hs).symm
  next wait watch request hp => exact interrupted rfl (Or.inr ⟨wait, hp⟩) (Option.some.inj hs).symm
  next wait watch answer hp =>
    obtain ⟨x, hx, rfl⟩ := Option.map_eq_some_iff.mp hs
    dsimp only at hp fits
    subst hp
    exact resume_matches runs tidy fits hx
  next => exact finished rfl (Option.some.inj hs).symm
  next => exact finished rfl (Option.some.inj hs).symm
  next => exact finished rfl (Option.some.inj hs).symm
  next => simp at hs

/-- What happens on the connections in the course of a run is a run of the dialogue, and at its end
the session fits the state of the connection. -/
theorem run_matches {hasRoots : Bool} {moves : List Move} {r : Runner}
    (run : Run (start p hasRoots) moves r) :
    ∃ w, Wire.Runs p (deeds moves) w ∧ r.Matches p w := by
  induction run with
  | start =>
    refine ⟨.shut, .start, ⟨rfl, by simp [start, Session.create], by simp [start, Session.create]⟩, ?_⟩
    exact .closed .shut ⟨rfl, rfl, rfl, rfl, ⟨rfl, rfl⟩⟩
  | next _ hs ih =>
    obtain ⟨w, runs, matched⟩ := ih
    rw [deeds_append]
    exact step_matches runs matched hs

end Runner

end FtpControl

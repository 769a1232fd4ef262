import FtpControl.Proofs.LoopHead
import FtpControl.Proofs.ReplyJudgement

namespace FtpControl

def Transport.refusals : List String :=
  [Transport.notOpen.message, Transport.alreadyEncrypted.message]

def Runner.Input.reason? : Runner.Input → Option String
  | .answer (.lookupFailed message) | .answer (.writeFailed message)
  | .answer (.readFailed message) => some message
  | _ => none

/-- Whatever a session has told of its end satisfies `q`. -/
def Session.Ends (q : String → Prop) (s : Session) : Prop :=
  ∀ text, Event.fatal text ∈ s.news → q text

theorem Transport.not_refusal {text : String} {c : Char} (h : text.toList.head? = some c)
    (hs : c ≠ 'S') (hc : c ≠ 'C') : text ∉ Transport.refusals := by
  intro hm
  simp only [refusals, List.mem_cons, List.not_mem_nil, or_false] at hm
  rcases hm with rfl | rfl
  · exact hs (Option.some.inj h).symm
  · exact hc (Option.some.inj h).symm

theorem Argument.not_refusal {missing text : String} {failure : Failure}
    (hm : missing ∉ Transport.refusals) (h : Argument.ofText missing text = .error failure) :
    failure.message ∉ Transport.refusals := by
  unfold Argument.ofText at h
  split at h
  next =>
    cases h
    exact hm
  next =>
    split at h
    next => cases h
    next =>
      cases h
      decide

theorem Argument.not_refusal_of_map {missing text : String} {failure : Failure}
    {wrap : Argument → Command} (hm : missing ∉ Transport.refusals)
    (h : wrap <$> Argument.ofText missing text = .error failure) :
    failure.message ∉ Transport.refusals := by
  cases ht : Argument.ofText missing text with
  | ok argument => simp [ht, Functor.map, Except.map] at h
  | error other =>
    have he : other = failure := by simpa [ht, Functor.map, Except.map] using h
    rw [← he]
    exact Argument.not_refusal hm ht

theorem Session.judge_not_refusal {line message : String} (h : judge line = .refused message) :
    message ∉ Transport.refusals := by
  unfold judge at h
  split at h
  next => cases h
  next reply hr =>
    split at h
    next => cases h
    next =>
      split at h
      next =>
        cases h
        obtain ⟨c, hc, hd⟩ := Reply.head_of_ofLine? hr
        refine Transport.not_refusal hc ?_ ?_
        · rintro rfl
          simp [isDigit] at hd
        · rintro rfl
          simp [isDigit] at hd
      next =>
        split at h
        next => cases h
        next failure hf =>
          cases h
          unfold Reply.code at hf
          split at hf
          next => cases hf
          next =>
            cases hf
            exact (by decide : "Server reply code out of range." ∉ Transport.refusals)

theorem Reply.path_not_refusal {line : List Char} {failure : Failure}
    (h : ofLine line >>= quotedPath = .error failure) :
    failure.message ∉ Transport.refusals := by
  unfold ofLine at h
  split at h
  next reply _ =>
    simp only [bind, Except.bind, quotedPath] at h
    split at h
    next => cases h
    next =>
      cases h
      decide
  next =>
    cases h
    decide

namespace Session

variable {q : String → Prop} {s : Session}

theorem Ends.emit {event : Event} (h : s.Ends q) (he : ∀ text, event = .fatal text → q text) :
    (s.emit event).Ends q := by
  intro text ht
  rcases List.mem_append.mp ht with ht | ht
  · exact h text ht
  · exact he text (List.mem_singleton.mp ht).symm

theorem Ends.log (h : s.Ends q) (line : String) : (s.log line).Ends q :=
  h.emit nofun

theorem Ends.fail {message : String} (h : s.Ends q) (hm : q message) : (s.fail message).Ends q := by
  have hreset : s.reset.Ends q := h
  refine hreset.emit fun text ht => ?_
  cases ht
  exact hm

theorem Ends.send (h : s.Ends q) (hopen : s.transport.isOpen = true) (command : Command) :
    (s.send command).Ends q := by
  have hsend : (s.send command).news = (s.log (">>> " ++ command.shown)).news := by
    simp only [Transport.isOpen] at hopen
    simp [Session.send, withTransport, Transport.request, Transport.push, Transport.isOpen, Session.log,
      Session.emit, bind, Except.bind, hopen]
  intro text ht
  rw [hsend] at ht
  exact h.log _ text ht

theorem Ends.readNext (h : s.Ends q) (hopen : s.transport.isOpen = true) : s.readNext.Ends q := by
  have hread : s.readNext.news = s.news := by
    simp [Session.readNext, withTransport, Transport.request, hopen]
  intro text ht
  rw [hread] at ht
  exact h text ht

section Replies

variable (hq : ∀ text, text ∉ Transport.refusals → q text)
include hq

theorem Ends.sendUser (h : s.Ends q) (hopen : s.transport.isOpen = true) : s.sendUser.Ends q := by
  unfold Session.sendUser
  split
  next command _ => exact h.send hopen command
  next failure hf =>
    exact h.fail (hq _ (Argument.not_refusal_of_map (by decide) hf))

theorem Ends.sendPassword (h : s.Ends q) (hopen : s.transport.isOpen = true) :
    s.sendPassword.Ends q := by
  unfold Session.sendPassword
  split
  next command _ => exact h.send hopen command
  next failure hf =>
    exact h.fail (hq _ (Argument.not_refusal_of_map (by decide) hf))

omit hq in
theorem Ends.loggedIn (h : s.Ends q) : s.loggedIn.Ends q := by
  have hidle : ((s.enter .loggedIn).emit .idle).Ends q := Ends.emit h nofun
  exact hidle

theorem Ends.afterWelcome (h : s.Ends q) (hopen : s.transport.isOpen = true) :
    s.afterWelcome.Ends q := by
  unfold Session.afterWelcome
  split
  next => exact h.send hopen _
  next => exact h.sendUser hq hopen

omit hq in
theorem Ends.afterAuthTls (h : s.Ends q) (hopen : s.transport.isOpen = true)
    (plain : s.transport.encrypted = false) : s.afterAuthTls.Ends q := by
  have hrequest : s.transport.requestHandshake = .ok (s.transport.push .handshake) := by
    simp [Transport.requestHandshake, Transport.request, hopen, plain]
  unfold Session.afterAuthTls
  rw [hrequest]
  exact h

theorem Ends.afterUser (h : s.Ends q) (hopen : s.transport.isOpen = true) (code : UInt16) :
    (s.afterUser code).Ends q := by
  unfold Session.afterUser
  split
  next => exact h.loggedIn
  next => exact h.sendPassword hq hopen

theorem Ends.afterPwd (h : s.Ends q) (line : String) : (s.afterPwd line).Ends q := by
  unfold Session.afterPwd
  split
  next => exact Ends.emit h nofun
  next failure hf => exact h.fail (hq _ (Reply.path_not_refusal hf))

omit hq in
theorem Ends.afterStat (today : Date) (h : s.Ends q) : (s.afterStat today).Ends q := by
  unfold Session.afterStat
  dsimp only
  split
  next => exact Ends.emit h nofun
  next failure _ =>
    have hlog : (({ s with listing := #[] } : Session).enter .loggedIn |>.log failure.message).Ends q :=
      Ends.log h _
    exact hlog.emit nofun

theorem Ends.accept {line : String} {next : Session → UInt16 → Session} (h : s.Ends q)
    (hopen : s.transport.isOpen = true) (good : ∀ code, (next (s.log line) code).Ends q) :
    (s.accept line next).Ends q := by
  have hlog := h.log line
  unfold Session.accept
  dsimp only
  split
  next => exact hlog.fail (hq _ (by decide))
  next => exact hlog.readNext hopen
  next message hm => exact hlog.fail (hq _ (judge_not_refusal hm))
  next code _ => exact good code

theorem Ends.handleStat (today : Date) (line : String) (h : s.Ends q)
    (hopen : s.transport.isOpen = true) : (s.handleStat today line).Ends q := by
  unfold Session.handleStat
  split
  next =>
    dsimp only
    split
    next =>
      have hlog := h.log "(directory list was here)"
      exact Ends.readNext (s := { s.log "(directory list was here)" with
        listing := (s.log "(directory list was here)").listing.push line }) hlog hopen
    next => exact Ends.readNext (s := { s with listing := s.listing.push line }) h hopen
  next => exact h.accept hq hopen fun _ => (h.log line).afterStat today

omit hq in
theorem Ends.handleUnexpected (line : String) (h : s.Ends q) : (s.handleUnexpected line).Ends q := by
  have hlog := h.log line
  unfold Session.handleUnexpected
  dsimp only
  split
  next => exact hlog.emit nofun
  next => exact hlog

theorem Ends.handleLine (today : Date) (line : String) (h : s.Ends q)
    (hopen : s.transport.isOpen = true)
    (plain : s.stage = .awaitingAuthTls → s.transport.encrypted = false) :
    (s.handleLine today line).Ends q := by
  have hlog := h.log line
  unfold Session.handleLine
  cases hs : s.stage with
  | notConnected | awaitingHandshake | loggedIn => exact h.handleUnexpected line
  | awaitingWelcome => exact h.accept hq hopen fun _ => hlog.afterWelcome hq hopen
  | awaitingAuthTls => exact h.accept hq hopen fun _ => hlog.afterAuthTls hopen (plain hs)
  | awaitingPbsz => exact h.accept hq hopen fun _ => hlog.sendUser hq hopen
  | awaitingUser => exact h.accept hq hopen fun code => hlog.afterUser hq hopen code
  | awaitingPass => exact h.accept hq hopen fun _ => hlog.loggedIn
  | awaitingCwd => exact h.accept hq hopen fun _ => hlog.send hopen .pwd
  | awaitingPwd => exact h.accept hq hopen fun _ => hlog.afterPwd hq line
  | awaitingStat => exact h.handleStat hq today line hopen

end Replies

/-- Navigation is only begun on a connection that stands. -/
theorem Ends.handle (request : Request) (h : s.Ends q)
    (hopen : request.interrupts = false → s.stage = .loggedIn → s.transport.isOpen = true) :
    (s.handle request).Ends q := by
  have navigate : ∀ start : Session → Session,
      (s.stage = .loggedIn → (start s).Ends q) → (s.navigate request start).Ends q := by
    intro start hstart
    unfold Session.navigate
    split
    next hs => exact hstart hs
    next =>
      split
      next => exact h
      next => exact h.emit nofun
  cases request with
  | connect => exact h.log "Connecting..."
  | disconnect => exact h
  | changeDirectory path =>
    refine navigate _ fun hs => ?_
    unfold beginChangeDirectory
    split
    next command _ => exact h.send (hopen rfl hs) command
    next => exact h.emit nofun
  | listDirectory =>
    refine navigate _ fun hs => ?_
    exact Ends.send (s := { s with listing := #[] }) h (hopen rfl hs) .statList

theorem Reads.plain {p : Profile} {link : Link} {watch : Bool} (reads : s.Reads link watch)
    (sound : (Wire.live link).Sound p) :
    s.stage = .awaitingAuthTls → s.transport.encrypted = false := by
  intro hs
  cases watch with
  | false =>
    rw [Wire.Sound, reads.due rfl, hs] at sound
    rw [reads.uses.carries.encrypted]
    exact sound.2
  | true => simp [(reads.idle rfl).1] at hs

theorem Rests.plain {p : Profile} {w : Wire} {op : Operation} {ops : List Operation}
    (rests : s.Rests w (op :: ops)) (sound : w.Sound p) (hp : s.profile = p) :
    s.stage = .awaitingAuthTls → s.transport.encrypted = false := by
  intro hs
  cases rests with
  | resolving w h _ | dialling w h _ => simp [h.stage] at hs
  | shaking uses h _ => simp [h] at hs
  | sending uses permits =>
    rw [hp, hs] at permits
    rw [uses.carries.encrypted]
    exact (permits.fits sound).2
  | reading uses due =>
    rw [Wire.Sound, due, hs] at sound
    rw [uses.carries.encrypted]
    exact sound.2

end Session

namespace Runner

variable {q : String → Prop} {s : Session} {today : Date}

theorem settle_fatal_ends {text : String} (h : s.Ends q) (hm : q text) (watch : Bool)
    (t : Transport) : (settle today s watch (t.fatal text)).session.Ends q := by
  have hlog := Session.Ends.log (s := { s with transport := t.disconnect }) h
    ("Connection error: " ++ text)
  exact hlog.fail hm

section Replies

variable (hq : ∀ text, text ∉ Transport.refusals → q text)
include hq

theorem readOn_ends (today : Date) (h : s.Ends q) (hopen : s.transport.isOpen = true)
    (plain : s.stage = .awaitingAuthTls → s.transport.encrypted = false) (watch : Bool) :
    (settle today s watch s.transport.readOn).session.Ends q := by
  unfold Transport.readOn
  split
  next text buffer _ =>
    exact Session.Ends.handleLine (s := { s with transport := { s.transport with buffer } }) hq
      today text h hopen plain
  next =>
    split
    next => exact settle_fatal_ends h (hq _ (by decide)) watch _
    next =>
      split
      next hn => simp [Transport.isOpen, hn] at hopen
      next => exact h

theorem begin_ends {op : Operation} (h : s.Ends q) (accepts : s.transport.Accepts op)
    (plain : s.stage = .awaitingAuthTls → s.transport.encrypted = false) (watch : Bool) :
    (settle today s watch (s.transport.begin op)).session.Ends q := by
  cases op with
  | resolve => exact h
  | connect =>
    obtain ⟨endpoint, candidates, hc⟩ := List.exists_cons_of_ne_nil accepts
    simp only [Transport.begin, Transport.dialNext, hc]
    exact h
  | handshake =>
    obtain ⟨c, hc⟩ := accepts
    simp only [Transport.begin, Transport.beginHandshake, hc, Bool.false_eq_true, ↓reduceIte]
    split
    next => exact settle_fatal_ends h (hq _ (by decide)) watch _
    next =>
      split
      next failure hf =>
        refine settle_fatal_ends h (hq _ ?_) watch _
        unfold ServerName.ofHost at hf
        split at hf
        next => cases hf
        next =>
          split at hf
          next => cases hf
          next =>
            cases hf
            exact Transport.not_refusal (c := 'I') (by simp [String.toList_append]) (by decide)
              (by decide)
      next => exact h
  | writeLine line =>
    obtain ⟨stream, hs⟩ := Option.isSome_iff_exists.mp accepts
    simp only [Transport.begin, Transport.beginWrite, hs]
    exact h
  | readLine => exact readOn_ends hq today h accepts plain watch

theorem resume_ends {p : Profile} {w : Wire} {wait : Wait} {watch : Bool} {answer : Answer}
    {x : Transport × Progress} {queue : List Operation} (h : s.Ends q)
    (told : ∀ text, (Input.answer answer).reason? = some text → q text)
    (waits : s.Waits w wait watch queue) (sound : w.Sound p)
    (hx : s.transport.resume wait answer = some x) :
    (settle today s watch x).session.Ends q := by
  have closed : q "Control stream timed out." := hq _ (by decide)
  cases waits with
  | lookup w host port dialling hc =>
    cases answer with
    | found endpoints =>
      cases hx
      unfold Transport.resolved
      dsimp only
      split
      next =>
        refine settle_fatal_ends h (hq _ ?_) false _
        exact Transport.not_refusal (c := 'N') (by simp [String.toList_append]) (by decide)
          (by decide)
      next => exact h
    | lookupFailed message =>
      cases hx
      exact settle_fatal_ends h (told message rfl) false _
    | expired =>
      cases hx
      exact settle_fatal_ends h closed false _
    | _ => simp [Transport.resume] at hx
  | dial w endpoint dialling =>
    cases answer with
    | accepted c =>
      cases hx
      exact Session.Ends.readNext (s := { s with
        stage := .awaitingWelcome
        connecting := false
        transport := { s.transport with stream := some ⟨c, false⟩, candidates := [] }
        news := s.news ++ [.log "Connected."] ++ [.connected] })
        (Session.Ends.emit (s := s.log "Connected.") (h.log _) (by simp)) rfl
    | refused message =>
      cases hx
      unfold Transport.failOver
      let logged := "Connection error: " ++ (endpoint.text ++ ": " ++ message)
      have herror : ((s.log logged).emit (.error logged)).Ends q := (h.log logged).emit (by simp)
      cases hc : s.transport.candidates with
      | nil =>
        have hlog := herror.log ("Connection error: " ++ "Connection failed.")
        exact hlog.fail (hq _ (by decide))
      | cons next candidates => exact herror
    | expired =>
      cases hx
      exact settle_fatal_ends h closed false _
    | _ => simp [Transport.resume] at hx
  | @negotiate link name stage connecting stream candidates buffer granted unsent =>
    cases answer with
    | secured =>
      cases hx
      exact Session.Ends.send (s := { s with
        transport := { s.transport with
          stream := some ⟨link.stream.connection, true⟩, encrypted := true }
        news := s.news ++ [.log "TLS handshake complete."] }) (h.log _) rfl .pbszZero
    | handshakeFailed message =>
      cases hx
      refine settle_fatal_ends h (hq _ ?_) false _
      exact Transport.not_refusal (c := 'T') (by simp [String.toList_append]) (by decide) (by decide)
    | _ => simp [Transport.resume, Wait.guarded] at hx
  | @transmit link connecting carries due =>
    cases answer with
    | took count =>
      simp only [Transport.resume] at hx
      split at hx
      next =>
        cases hx
        exact h
      next =>
        cases hx
        exact h
    | writeFailed message =>
      cases hx
      exact settle_fatal_ends h (told message rfl) false _
    | expired =>
      cases hx
      exact settle_fatal_ends h closed false _
    | _ => simp [Transport.resume] at hx
  | receive reads =>
    cases answer with
    | received chunk =>
      cases hx
      exact readOn_ends (s := { s with
        transport := { s.transport with buffer := s.transport.buffer ++ chunk.bytes } }) hq today h
        reads.uses.isOpen (reads.plain sound) watch
    | ended =>
      cases hx
      exact settle_fatal_ends h (hq _ (by decide)) watch _
    | readFailed message =>
      cases hx
      exact settle_fatal_ends h (told message rfl) watch _
    | _ => simp [Transport.resume, Wait.guarded] at hx

theorem step_ends {p : Profile} {w : Wire} {r r' : Runner} {input : Input}
    (matched : r.Matches p w) (sound : w.Sound p) (h : r.session.Ends q)
    (told : ∀ text, input.reason? = some text → q text) (hs : r.step? today input = some r') :
    r'.session.Ends q := by
  have interrupted : ∀ {watch}, ((∃ op, r.phase = .ready op watch) ∨
      ∃ wait, r.phase = .waiting wait watch) →
      ∀ request, (r.interrupt watch request).session.Ends q := by
    intro watch hp request
    unfold interrupt
    split
    next hi =>
      refine h.handle request fun hn _ => ?_
      -- Navigation is handled at once only by a session that keeps watch.
      have hw : watch = true := by simpa [hn] using hi
      subst hw
      obtain ⟨⟨link, _, reads⟩, _⟩ := watching matched hp
      exact reads.uses.isOpen
    next => exact h
  have accepts : ∀ op watch, r.phase = .ready op watch → r.session.transport.Accepts op :=
    fun op watch hp => matched.accepts sound hp
  obtain ⟨s, phase⟩ := r
  obtain ⟨tidy, fits⟩ := matched
  unfold step? at hs
  split at hs
  next hp =>
    cases hs
    dsimp only at hp fits
    subst hp
    unfold atHead
    split
    next op transport hn => exact h
    next =>
      split
      next hs =>
        split
        next request deferred _ =>
          refine Session.Ends.handle (s := { s with deferred }) request h fun _ _ => ?_
          exact ((Session.coupled_of_rests tidy sound fits).ready hs).1
        next =>
          split
          next => exact h
          next => exact h
      next => exact h
  next op watch hp =>
    cases hs
    dsimp only at hp fits
    subst hp
    refine begin_ends hq h (accepts op watch rfl) ?_ watch
    cases watch with
    | false => exact Session.Rests.plain fits sound tidy.profile
    | true =>
      obtain ⟨_, link, rfl, reads⟩ := fits
      exact reads.plain sound
  next request hp =>
    cases hs
    dsimp only at hp fits
    subst hp
    refine h.handle request fun _ hs => ?_
    simp [fits.1.stage] at hs
  next op watch request hp =>
    cases hs
    exact interrupted (Or.inl ⟨op, hp⟩) request
  next wait watch request hp =>
    cases hs
    exact interrupted (Or.inr ⟨wait, hp⟩) request
  next wait watch answer hp =>
    obtain ⟨x, hx, rfl⟩ := Option.map_eq_some_iff.mp hs
    dsimp only at hp fits
    subst hp
    exact resume_ends hq h told fits sound hx
  next =>
    cases hs
    exact h
  next =>
    cases hs
    exact h
  next =>
    cases hs
    exact h
  next => simp at hs

end Replies

/-- A refusal among the fatal events of a run comes from the network, word for word. -/
theorem run_ends {p : Profile} {hasRoots : Bool} {moves : List Move} {r : Runner}
    (run : Run (start p hasRoots) moves r) :
    r.session.Ends fun text =>
      text ∉ Transport.refusals ∨ ∃ m ∈ moves, m.input.reason? = some text := by
  induction run with
  | start =>
    intro text ht
    simp [start, Session.create] at ht
  | @next moves r today input r' run hs ih =>
    obtain ⟨w, runs, matched⟩ := run_matches run
    refine step_ends (fun text ht => Or.inl ht) matched runs.sound ?_ ?_ hs
    · intro text ht
      rcases ih text ht with hn | ⟨m, hm, ht⟩
      · exact Or.inl hn
      · exact Or.inr ⟨m, List.mem_append_left _ hm, ht⟩
    · intro text ht
      exact Or.inr ⟨_, List.mem_append_right _ (List.mem_singleton_self _), ht⟩

/-- At the head of its loop a session always fits together with its transport; no operation that is
taken up is refused, and neither is a request. -/
theorem coupled_in_every_run {p : Profile} {hasRoots : Bool} {moves : List Move} {r : Runner}
    (run : Run (start p hasRoots) moves r) :
    (r.phase = .head → r.session.Coupled p) ∧
      (∀ op watch, r.phase = .ready op watch → r.session.transport.Accepts op) ∧
      ∀ text ∈ Transport.refusals, .fatal text ∈ r.session.news →
        ∃ m ∈ moves, m.input.reason? = some text := by
  obtain ⟨w, runs, matched⟩ := run_matches run
  refine ⟨?_, fun op watch hp => matched.accepts runs.sound hp, ?_⟩
  · intro hp
    obtain ⟨tidy, rests⟩ := matched
    rw [hp] at rests
    exact Session.coupled_of_rests tidy runs.sound rests
  · intro text hr ht
    rcases run_ends run text ht with hn | hm
    · exact absurd hr hn
    · exact hm

theorem coupled_before_handshake :
    ∃ p moves r, Run (start p true) moves r ∧ r.phase = .head ∧
      r.session.stage = .awaitingHandshake ∧ r.session.Coupled p := by
  let p : Profile := { host := "localhost", username := "user", password := "secret" }
  let inputs := Input.welcomed 0 "220 Ready\r\n" ++ Input.exchanged .authTls "234 Proceed\r\n"
  have h : (rehearse p inputs).map (fun x => (x.2.phase, x.2.session.stage)) =
      some (.head, .awaitingHandshake) := by decide +kernel
  obtain ⟨⟨moves, r⟩, hplay, hr⟩ := Option.map_eq_some_iff.mp h
  obtain ⟨hp, hs⟩ := Prod.mk.inj hr
  have run := run_of_play hplay
  exact ⟨p, moves, r, run, hp, hs, (coupled_in_every_run run).1 hp⟩

end Runner

end FtpControl

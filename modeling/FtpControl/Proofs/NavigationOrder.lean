import FtpControl.Proofs.NavigationQueue
import FtpControl.Proofs.Steps

namespace FtpControl

open Desk (Item Post)

def Desk.Post.Fits (connecting : Bool) (post : Post) : Stage → Prop
  | .notConnected => post = .login ∧ connecting = true
  | .loggedIn => post = .free
  | .awaitingCwd | .awaitingPwd => ∃ path, post = .busy (.changeDirectory path)
  | .awaitingStat => post = .busy .listDirectory
  | _ => post = .login

namespace Session

/-- What has been told since then leads to here. -/
def Tale (p : Profile) (base : List Event) (first : Desk) (s : Session) (post : Post) : Prop :=
  ∃ events, s.news = base ++ events ∧ Desk.Runs p first (events.map Item.told) ⟨post, s.deferred⟩

/-- What has been told since then leads to where the session stands, unless it is at its end. -/
def Accounts (p : Profile) (base : List Event) (first : Desk) (s : Session) : Prop :=
  ∃ events desk, s.news = base ++ events ∧ Desk.Runs p first (events.map Item.told) desk ∧
    ((∀ text, .fatal text ∉ events) →
      desk.post.Fits s.connecting s.stage ∧ desk.waiting = s.deferred)

variable {p : Profile} {base : List Event} {first : Desk} {s : Session} {post : Post}

theorem Tale.emit {event : Event} {later : Post} (h : s.Tale p base first post)
    (step : Desk.Step p ⟨post, s.deferred⟩ (.told event) ⟨later, s.deferred⟩) :
    (s.emit event).Tale p base first later := by
  obtain ⟨events, hn, runs⟩ := h
  refine ⟨events ++ [event], ?_, ?_⟩
  · rw [Session.emit, hn, List.append_assoc]
  · rw [List.map_append]
    exact runs.next step

theorem Tale.log (h : s.Tale p base first post) (line : String) :
    (s.log line).Tale p base first post :=
  h.emit (.log _ line)

theorem Tale.accounts (h : s.Tale p base first post) (fits : post.Fits s.connecting s.stage) :
    s.Accounts p base first := by
  obtain ⟨events, hn, runs⟩ := h
  exact ⟨events, ⟨post, s.deferred⟩, hn, runs, fun _ => ⟨fits, rfl⟩⟩

theorem Tale.over {t : Session} {message : String} (h : s.Tale p base first post)
    (ht : t.news = s.news ++ [.fatal message]) : t.Accounts p base first := by
  obtain ⟨events, hn, runs⟩ := h
  refine ⟨events ++ [.fatal message], ⟨post, s.deferred⟩, ?_, ?_, ?_⟩
  · rw [ht, hn, List.append_assoc]
  · rw [List.map_append]
    exact runs.next (.fatal _ message)
  · intro hf
    exact absurd (List.mem_append_right _ (List.mem_singleton_self _)) (hf message)

theorem Tale.fail (h : s.Tale p base first post) (message : String) :
    (s.fail message).Accounts p base first :=
  h.over rfl

theorem Tale.send {stage : Stage} (h : s.Tale p base first post) (command : Command)
    (fits : post.Fits s.connecting stage) :
    ((s.send command).enter stage).Accounts p base first := by
  have hlog := h.log (">>> " ++ command.shown)
  unfold Session.send withTransport
  split
  next transport _ => exact Tale.accounts (s := { s.log (">>> " ++ command.shown) with
      transport, stage }) hlog fits
  next failure _ => exact hlog.over rfl

theorem Tale.readNext (h : s.Tale p base first post) (fits : post.Fits s.connecting s.stage) :
    s.readNext.Accounts p base first := by
  unfold Session.readNext withTransport
  split
  next transport _ => exact Tale.accounts (s := { s with transport }) h fits
  next failure _ => exact h.fail failure.message

theorem Tale.sendUser (h : s.Tale p base first .login) : s.sendUser.Accounts p base first := by
  unfold Session.sendUser
  split
  next command _ => exact h.send command rfl
  next failure _ => exact h.fail failure.message

theorem Tale.sendPassword (h : s.Tale p base first .login) :
    s.sendPassword.Accounts p base first := by
  unfold Session.sendPassword
  split
  next command _ => exact h.send command rfl
  next failure _ => exact h.fail failure.message

/-- With the login the automatic requests come before those that have been put off. -/
theorem Tale.loggedIn (h : s.Tale p base first .login) (hp : s.profile = p) :
    s.loggedIn.Accounts p base first := by
  obtain ⟨events, hn, runs⟩ := h
  have hdeferred : s.loggedIn.deferred = p.automatic ++ s.deferred := by
    rw [← hp]
    rfl
  have hready : s.loggedIn.Tale p base first .free := by
    refine ⟨events ++ [.idle], ?_, ?_⟩
    · change s.news ++ [.idle] = _
      rw [hn, List.append_assoc]
    · rw [List.map_append, hdeferred]
      exact runs.next (.idle s.deferred)
  exact hready.accounts rfl

theorem Tale.afterWelcome (h : s.Tale p base first .login) : s.afterWelcome.Accounts p base first := by
  unfold Session.afterWelcome
  split
  next => exact h.send .authTls rfl
  next => exact h.sendUser

theorem Tale.afterAuthTls (h : s.Tale p base first .login) :
    s.afterAuthTls.Accounts p base first := by
  unfold Session.afterAuthTls
  split
  next transport _ =>
    exact Tale.accounts (s := { s with transport, stage := .awaitingHandshake }) h rfl
  next failure _ => exact h.fail failure.message

theorem Tale.afterUser (h : s.Tale p base first .login) (hp : s.profile = p) (code : UInt16) :
    (s.afterUser code).Accounts p base first := by
  unfold Session.afterUser
  split
  next => exact h.loggedIn hp
  next => exact h.sendPassword

theorem Tale.afterPwd {path : String} (h : s.Tale p base first (.busy (.changeDirectory path)))
    (line : String) : (s.afterPwd line).Accounts p base first := by
  unfold Session.afterPwd
  split
  next named _ =>
    have hmoved := Tale.emit (s := s.enter .loggedIn) h
      (.outcome s.deferred (.moved path (String.ofList named)))
    exact hmoved.accounts rfl
  next failure _ => exact h.fail failure.message

theorem Tale.afterStat (today : Date) (h : s.Tale p base first (.busy .listDirectory)) :
    (s.afterStat today).Accounts p base first := by
  have hready : Tale p base first ({ s with listing := #[] }.enter .loggedIn) (.busy .listDirectory) := h
  unfold Session.afterStat
  dsimp only
  split
  next entries _ =>
    have hlisted := hready.emit (.outcome s.deferred (.listed entries))
    exact hlisted.accounts rfl
  next failure hf =>
    have hunread := (hready.log failure.message).emit (.outcome s.deferred (.unreadable hf))
    exact hunread.accounts rfl

theorem Tale.accept {line : String} {next : Session → UInt16 → Session}
    (h : s.Tale p base first post) (fits : post.Fits s.connecting s.stage)
    (good : ∀ code, (next (s.log line) code).Accounts p base first) :
    (s.accept line next).Accounts p base first := by
  have hlog := h.log line
  unfold Session.accept
  dsimp only
  split
  next => exact hlog.fail _
  next => exact hlog.readNext fits
  next message _ => exact hlog.fail message
  next code _ => exact good code

theorem Tale.handleStat (today : Date) (h : s.Tale p base first (.busy .listDirectory))
    (hs : s.stage = .awaitingStat) (line : String) :
    (s.handleStat today line).Accounts p base first := by
  have fits : (Post.busy .listDirectory).Fits s.connecting s.stage := by
    rw [hs]
    rfl
  unfold Session.handleStat
  split
  next =>
    dsimp only
    split
    next =>
      exact Tale.readNext (s := { s.log "(directory list was here)" with
        listing := (s.log "(directory list was here)").listing.push line }) (h.log _) fits
    next => exact Tale.readNext (s := { s with listing := s.listing.push line }) h fits
  next => exact h.accept fits fun _ => (h.log line).afterStat today

theorem Tale.handleUnexpected (h : s.Tale p base first .free) (hs : s.stage = .loggedIn)
    (line : String) : (s.handleUnexpected line).Accounts p base first := by
  have hlog := h.log line
  have fits : Post.free.Fits s.connecting s.stage := by
    rw [hs]
    rfl
  unfold Session.handleUnexpected
  dsimp only
  split
  next =>
    have hcomplaint := hlog.emit (.complaint s.deferred)
    exact hcomplaint.accounts fits
  next => exact hlog.accounts fits

theorem Tale.handleLine (today : Date) (h : s.Tale p base first post) (hp : s.profile = p)
    (fits : post.Fits s.connecting s.stage) (stands : s.stage ≠ .notConnected)
    (heard : s.stage ≠ .awaitingHandshake) (line : String) :
    (s.handleLine today line).Accounts p base first := by
  have hfits := fits
  unfold Session.handleLine
  cases hs : s.stage with
  | notConnected => exact absurd hs stands
  | awaitingHandshake => exact absurd hs heard
  | loggedIn =>
    rw [hs] at fits
    obtain rfl : post = .free := fits
    exact h.handleUnexpected hs line
  | awaitingWelcome =>
    rw [hs] at fits
    obtain rfl : post = .login := fits
    exact h.accept hfits fun _ => (h.log line).afterWelcome
  | awaitingAuthTls =>
    rw [hs] at fits
    obtain rfl : post = .login := fits
    exact h.accept hfits fun _ => (h.log line).afterAuthTls
  | awaitingPbsz =>
    rw [hs] at fits
    obtain rfl : post = .login := fits
    exact h.accept hfits fun _ => (h.log line).sendUser
  | awaitingUser =>
    rw [hs] at fits
    obtain rfl : post = .login := fits
    exact h.accept hfits fun code => (h.log line).afterUser hp code
  | awaitingPass =>
    rw [hs] at fits
    obtain rfl : post = .login := fits
    exact h.accept hfits fun _ => (h.log line).loggedIn hp
  | awaitingCwd =>
    rw [hs] at fits
    exact h.accept hfits fun _ => (h.log line).send .pwd fits
  | awaitingPwd =>
    rw [hs] at fits
    obtain ⟨path, rfl⟩ := fits
    exact h.accept hfits fun _ => (h.log line).afterPwd line
  | awaitingStat =>
    rw [hs] at fits
    obtain rfl : post = .busy .listDirectory := fits
    exact h.handleStat today hs line

end Session

namespace Runner

variable {p : Profile} {base : List Event} {first : Desk} {s : Session} {post : Post} {w : Wire}
  {r r' : Runner} {today : Date} {input : Input}

theorem settle_fatal_accounts (today : Date) (h : s.Tale p base first post) (watch : Bool)
    (t : Transport) (message : String) :
    (settle today s watch (t.fatal message)).session.Accounts p base first :=
  (Session.Tale.log (s := { s with transport := t.disconnect }) h
    ("Connection error: " ++ message)).fail message

theorem settle_accounts (today : Date) {x : Transport × Progress} (h : s.Tale p base first post)
    (hp : s.profile = p) (fits : post.Fits s.connecting s.stage) (watch : Bool) (meets : s.Meets x) :
    (settle today s watch x).session.Accounts p base first := by
  cases meets with
  | waits t wait => exact Session.Tale.accounts (s := { s with transport := t }) h fits
  | passes t => exact Session.Tale.accounts (s := { s with transport := t }) h fits
  | written t _ => exact Session.Tale.accounts (s := { s with transport := t }) h fits
  | fails t message => exact settle_fatal_accounts today h watch t message
  | connected t hs hc _ =>
    rw [hs] at fits
    obtain ⟨rfl, _⟩ := fits
    have hconnected := (h.log "Connected.").emit (.connected s.deferred)
    exact Session.Tale.readNext (s := { s with
      stage := .awaitingWelcome
      connecting := false
      transport := t
      news := s.news ++ [.log "Connected."] ++ [.connected] }) hconnected rfl
  | passedOver t message exhausted hs hc =>
    have hfits := fits
    rw [hs] at fits
    obtain ⟨rfl, _⟩ := fits
    let logged := "Connection error: " ++ message
    have herror := (h.log logged).emit (.passedOver s.deferred message)
    cases exhausted with
    | false =>
      exact Session.Tale.accounts (s := { (s.log logged).emit (.error logged) with
        transport := t }) herror hfits
    | true =>
      have hlog := herror.log ("Connection error: " ++ "Connection failed.")
      exact hlog.over rfl
  | secured t hs _ =>
    rw [hs] at fits
    obtain rfl : post = .login := fits
    exact Session.Tale.send (s := { s with
      transport := t
      news := s.news ++ [.log "TLS handshake complete."] }) (h.log _) .pbszZero rfl
  | reads bytes stands heard _ =>
    unfold Transport.readOn
    split
    next line buffer _ =>
      exact Session.Tale.handleLine (s := { s with
        transport := { s.transport with buffer } }) today h hp fits stands heard line
    next =>
      split
      next => exact settle_fatal_accounts today h watch _ _
      next =>
        split
        next => exact settle_fatal_accounts today h watch _ _
        next => exact Session.Tale.accounts (s := { s with
          transport := { s.transport with buffer := s.transport.buffer ++ bytes } }) h fits

def Move.asked (m : Move) : List Request :=
  match m.input with
  | .request request => if request.interrupts then [] else [request]
  | _ => []

/-- The navigation that is begun in a step: what a session that is ready is handed. -/
def Move.begun (m : Move) : List Request :=
  match m.before.hands? m.input with
  | some (s, request) =>
    if request.interrupts = false ∧ s.stage = .loggedIn then [request] else []
  | none => []

def Move.told (m : Move) : List Event :=
  m.after.session.news.drop m.before.session.news.length

def Move.journal (m : Move) : List Item :=
  m.asked.map .asked ++ m.begun.map .begun ++ m.told.map .told

/-- The step puts an end to what was under way: a request interrupts, no request will come any more, or
the session is over. -/
def Move.ends (m : Move) : Bool :=
  (match m.input with
    | .request request => request.interrupts
    | .close => true
    | _ => false) ||
  m.told.any fun event => match event with | .fatal _ => true | _ => false

theorem Move.not_fatal_of_ends {m : Move} (h : m.ends = false) (text : String) :
    .fatal text ∉ m.told := by
  intro ht
  have hany := (Bool.or_eq_false_iff.mp h).2
  have hfatal := List.any_eq_false.mp hany _ ht
  simp at hfatal

def journal (moves : List Move) : List Item :=
  moves.flatMap Move.journal

theorem handle_accounts {request : Request} (hi : request.interrupts = false)
    (hs : s.stage = .loggedIn) (h : s.Tale p base first (.busy request)) :
    (s.handle request).Accounts p base first := by
  cases request with
  | connect | disconnect => simp [Request.interrupts] at hi
  | changeDirectory path =>
    simp only [Session.handle, Session.navigate, hs, ↓reduceIte]
    unfold Session.beginChangeDirectory
    split
    next command _ => exact h.send command ⟨path, rfl⟩
    next failure hf =>
      have hrejected := h.emit (.outcome s.deferred (.rejected hf))
      refine hrejected.accounts ?_
      change Post.free.Fits s.connecting s.stage
      rw [hs]
      rfl
  | listDirectory =>
    simp only [Session.handle, Session.navigate, hs, ↓reduceIte]
    exact Session.Tale.send (s := { s with listing := #[] }) h .statList rfl

theorem journal_eq {events : List Event} {asked begun : List Request}
    (ha : Move.asked ⟨r, input, r'⟩ = asked) (hb : Move.begun ⟨r, input, r'⟩ = begun)
    (hn : r'.session.news = r.session.news ++ events) :
    Move.told ⟨r, input, r'⟩ = events ∧ Move.journal ⟨r, input, r'⟩ =
      asked.map .asked ++ begun.map .begun ++ events.map .told := by
  have htold : Move.told ⟨r, input, r'⟩ = events := by
    rw [Move.told, hn]
    exact List.drop_left
  exact ⟨htold, by rw [Move.journal, ha, hb, htold]⟩

theorem asked_of_operates {x : Transport × Progress} (hx : r.operates? input = some x) :
    Move.asked ⟨r, input, r'⟩ = [] := by
  unfold operates? at hx
  split at hx
  next => rfl
  next => rfl
  next => simp at hx

theorem begun_of_hands (h : r.hands? input = none) : Move.begun ⟨r, input, r'⟩ = [] := by
  simp only [Move.begun, h]

theorem hands_close (r : Runner) : r.hands? .close = none := by
  unfold hands?
  split <;> simp_all

/-- A request that interrupts leaves its mark in the log, and no other. -/
theorem handle_interrupting {request : Request} (hi : request.interrupts = true) (s : Session) :
    ∃ events, (s.handle request).news = s.news ++ events ∧ (events = [] ∨ events = [.log "Connecting..."]) := by
  cases request with
  | connect => exact ⟨_, rfl, Or.inr rfl⟩
  | disconnect => exact ⟨[], (List.append_nil _).symm, Or.inl rfl⟩
  | changeDirectory path | listDirectory => simp [Request.interrupts] at hi

/-- In a step the session keeps to what can happen next; where it does not put an end to what was
under way, it stands where that leads. -/
theorem step_journal (matched : r.Matches p w) (sound : w.Sound p)
    (fits : post.Fits r.session.connecting r.session.stage) (hs : r.step? today input = some r') :
    ∃ desk, Desk.Runs p ⟨post, r.session.deferred⟩ (Move.journal ⟨r, input, r'⟩) desk ∧
      (Move.ends ⟨r, input, r'⟩ = false →
        desk.post.Fits r'.session.connecting r'.session.stage ∧ desk.waiting = r'.session.deferred) := by
  have here : Session.Tale p r.session.news ⟨post, r.session.deferred⟩ r.session post :=
    ⟨[], (List.append_nil _).symm, .start⟩
  obtain ⟨after, hr, hturns⟩ : ∃ after, r' = after ∧ r.Turns today input after :=
    ⟨r', rfl, step_turns hs⟩
  cases hturns with
  | @handles s request hhands =>
    rcases hands_cases matched hhands with ⟨rfl, rfl, hi⟩ | ⟨_, _, closed⟩ | ⟨hi, stage, hsame, hturn⟩
    · have hends : Move.ends ⟨r, .request request, r'⟩ = true := by simp [Move.ends, hi]
      have hasked : Move.asked ⟨r, .request request, r'⟩ = [] := by
        simp only [Move.asked, hi, ↓reduceIte]
      have hbegun : Move.begun ⟨r, .request request, r'⟩ = [] := by
        simp [Move.begun, hhands, hi]
      obtain ⟨events, hn, hevents⟩ := handle_interrupting hi r.session
      have hnews : r'.session.news = r.session.news ++ events := by rw [hr]; exact hn
      rw [(journal_eq hasked hbegun hnews).2]
      rcases hevents with rfl | rfl
      · exact ⟨_, .start, fun h => by simp [hends] at h⟩
      · exact ⟨_, Desk.Runs.start.next (.log _ _), fun h => by simp [hends] at h⟩
    · rw [closed.stage] at fits
      have hconnecting := fits.2
      rw [closed.connecting] at hconnecting
      simp at hconnecting
    · have hstage : s.stage = .loggedIn := by rw [hsame]; exact stage
      rw [stage] at fits
      obtain rfl : post = .free := fits
      have hbegun : Move.begun ⟨r, input, r'⟩ = [request] := by
        simp [Move.begun, hhands, hi, hstage]
      have hmiddle : Desk.Runs p ⟨.free, r.session.deferred⟩
          ((Move.asked ⟨r, input, r'⟩).map .asked ++ [.begun request]) ⟨.busy request, s.deferred⟩ := by
        rcases hturn with ⟨rfl, hd⟩ | ⟨rfl, hd, hd'⟩
        · rw [hd]
          exact Desk.Runs.start.next (.begun request s.deferred)
        · have hasked : Move.asked ⟨r, .request request, r'⟩ = [request] := by simp [Move.asked, hi]
          rw [hasked, hd, hd']
          exact (Desk.Runs.start.next (.asked request)).next (.begun request [])
      have htale : Session.Tale p r.session.news ⟨.busy request, s.deferred⟩ s (.busy request) := by
        refine ⟨[], ?_, .start⟩
        rw [hsame, List.append_nil]
      obtain ⟨events, desk, hn, runs, hdesk⟩ := handle_accounts hi hstage htale
      have hnews : r'.session.news = r.session.news ++ events := by rw [hr]; exact hn
      obtain ⟨htold, hjournal⟩ := journal_eq rfl hbegun hnews
      rw [hjournal]
      refine ⟨desk, hmiddle.append runs, fun hends => ?_⟩
      have hstands := Move.not_fatal_of_ends hends
      rw [htold] at hstands
      rw [hr]
      exact hdesk hstands
  | @defers request hi hn hhands =>
    subst hi
    have hasked : Move.asked ⟨r, .request request, r'⟩ = [request] := by simp [Move.asked, hn]
    have hnews : r'.session.news = r.session.news ++ [] := by rw [hr, List.append_nil]
    rw [(journal_eq hasked (begun_of_hands hhands) hnews).2, hr]
    exact ⟨_, Desk.Runs.start.next (.asked request), fun _ => ⟨fits, rfl⟩⟩
  | operates watch hx hhands =>
    obtain ⟨events, desk, hn, runs, hdesk⟩ :=
      settle_accounts today here matched.1.profile fits watch (matched.meets sound hx)
    have hnews : r'.session.news = r.session.news ++ events := by rw [hr]; exact hn
    obtain ⟨htold, hjournal⟩ := journal_eq (asked_of_operates hx) (begun_of_hands hhands) hnews
    rw [hjournal]
    refine ⟨desk, runs, fun hends => ?_⟩
    have hstands := Move.not_fatal_of_ends hends
    rw [htold] at hstands
    rw [hr]
    exact hdesk hstands
  | passes queue phase hi hhands =>
    subst hi
    have hnews : r'.session.news = r.session.news ++ [] := by rw [hr, List.append_nil]
    rw [(journal_eq rfl (begun_of_hands hhands) hnews).2, hr]
    exact ⟨_, .start, fun _ => ⟨fits, rfl⟩⟩
  | finishes hi =>
    subst hi
    have hnews : r'.session.news = r.session.news ++ [] := by
      rw [hr, List.append_nil]
      rfl
    rw [(journal_eq rfl (begun_of_hands (hands_close r)) hnews).2]
    exact ⟨_, .start, fun hends => by simp [Move.ends] at hends⟩

theorem journal_append (moves : List Move) (m : Move) :
    journal (moves ++ [m]) = journal moves ++ m.journal := by
  simp [journal]

/-- The steps from a connection that is asked for, as far as nothing ends them; what was put off
before waits with the rest. -/
theorem segment_tally {hasRoots : Bool} {earlier moves : List Move} {opened : Runner}
    (run : Run (start p hasRoots) earlier opened)
    (fits : Post.login.Fits opened.session.connecting opened.session.stage)
    (segment : Run opened moves r) (whole : ∀ m ∈ moves, m.ends = false) :
    ∃ post : Post, post.Fits r.session.connecting r.session.stage ∧
      Desk.Runs p ⟨.login, opened.session.deferred⟩ (journal moves) ⟨post, r.session.deferred⟩ := by
  induction segment with
  | start => exact ⟨.login, fits, .start⟩
  | @next moves r today input r' segment hs ih =>
    obtain ⟨post, fits, runs⟩ := ih fun m hm => whole m (List.mem_append_left _ hm)
    obtain ⟨w, wires, matched⟩ := run_matches (run.append segment)
    obtain ⟨⟨later, waiting⟩, hruns, hstands⟩ := step_journal matched wires.sound fits hs
    obtain ⟨hfits, rfl⟩ := hstands (whole _ (List.mem_append_right _ (List.mem_singleton_self _)))
    rw [journal_append]
    exact ⟨later, hfits, runs.append hruns⟩

theorem segment_order {hasRoots : Bool} {earlier moves : List Move} {opened : Runner}
    (run : Run (start p hasRoots) earlier opened)
    (fits : Post.login.Fits opened.session.connecting opened.session.stage)
    (segment : Run opened moves r) (whole : ∀ m ∈ moves.dropLast, m.ends = false) :
    Desk.begun (journal moves) <+:
      p.automatic ++ opened.session.deferred ++ Desk.asked (journal moves) := by
  cases segment with
  | start => exact List.nil_prefix
  | @next before r today input _ segment hs =>
    rw [List.dropLast_concat] at whole
    obtain ⟨post, fits, runs⟩ := segment_tally run fits segment whole
    obtain ⟨w, wires, matched⟩ := run_matches (run.append segment)
    obtain ⟨desk, hruns, _⟩ := step_journal matched wires.sound fits hs
    rw [journal_append]
    exact (runs.append hruns).order

end Runner

end FtpControl

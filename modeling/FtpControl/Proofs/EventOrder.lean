import FtpControl.Proofs.StepEvents

namespace FtpControl

namespace Event

def isFatal : Event → Bool
  | .fatal _ => true
  | _ => false

/-- The events of one connect in their order. -/
structure Ordered (events : List Event) : Prop where
  connected : events.count .connected ≤ 1
  idle : events.count .idle ≤ 1
  fatal : events.countP isFatal ≤ 1
  login : ∀ before after, events = before ++ .idle :: after → .connected ∈ before
  navigation : ∀ before event after, events = before ++ event :: after →
    (∃ path, event = .directory path) ∨ (∃ entries, event = .listing entries) → .idle ∈ before
  addresses : ∀ before message after,
    events = before ++ .error ("Connection error: " ++ message) :: after → .connected ∉ before

theorem Reports.cases {event : Event} (h : event.Reports) :
    (∃ path, event = .directory path) ∨ (∃ entries, event = .listing entries) ∨
      ∃ message, event = .error message ∧ ∀ rest, message ≠ "Connection error: " ++ rest := by
  rcases h with ⟨request, outcome⟩ | rfl
  · have passes : ∀ rest, event ≠ .error ("Connection error: " ++ rest) := by
      rintro rest rfl
      exact Request.not_outcome_passedOver request rest outcome
    cases outcome with
    | moved path result => exact Or.inl ⟨result, rfl⟩
    | listed entries => exact Or.inr (Or.inl ⟨entries, rfl⟩)
    | rejected _ | unreadable _ =>
      exact Or.inr (Or.inr ⟨_, rfl, fun rest he => passes rest (congrArg Event.error he)⟩)
  · refine Or.inr (Or.inr ⟨_, rfl, fun rest he => ?_⟩)
    have hletters := congrArg String.toList he
    simp [String.toList_append] at hletters

end Event

namespace Session

/-- What can be told next, and where it leads. -/
inductive Chapter.Step : Chapter → Event → Chapter → Prop
  | log (c : Chapter) (line : String) : Step c (.log line) c
  | passedOver (message : String) :
      Step .dialling (.error ("Connection error: " ++ message)) .dialling
  | connected : Step .dialling .connected .login
  | idle : Step .login .idle .ready
  | report {event : Event} : event.Reports → Step .ready event .ready
  | fatal {c : Chapter} (message : String) : c ≠ .over → Step c (.fatal message) .over
  | refusal : Step .over Desk.refusal .over

/-- What can have been told since a connect, and how far the session has come. -/
inductive Told : List Event → Chapter → Prop
  | start : Told [] .dialling
  | next {events : List Event} {event : Event} {c d : Chapter} : Told events c → c.Step event d →
      Told (events ++ [event]) d
  /-- The owner puts an end to it. -/
  | cut {events : List Event} {c : Chapter} : Told events c → Told events .over

/-- How often what has been told, at each chapter. -/
def Chapter.Counts (events : List Event) : Chapter → Prop
  | .dialling => events.count .connected = 0 ∧ events.count .idle = 0 ∧ events.countP Event.isFatal = 0
  | .login => events.count .connected = 1 ∧ events.count .idle = 0 ∧ events.countP Event.isFatal = 0
  | .ready => events.count .connected = 1 ∧ events.count .idle = 1 ∧ events.countP Event.isFatal = 0
  | .over => events.count .connected ≤ 1 ∧ events.count .idle ≤ 1 ∧ events.countP Event.isFatal ≤ 1

variable {s s' : Session} {events tail : List Event} {event : Event} {c d : Chapter}

theorem Chapter.Counts.le (h : c.Counts events) : events.count .connected ≤ 1 ∧
    events.count .idle ≤ 1 ∧ events.countP Event.isFatal ≤ 1 := by
  cases c <;> simp only [Counts] at h <;> omega

/-- An event of another kind changes no count. -/
theorem Chapter.Counts.append (h : c.Counts events) (hc : event ≠ .connected) (hi : event ≠ .idle)
    (hf : event.isFatal = false) : c.Counts (events ++ [event]) := by
  have hconnected : (events ++ [event]).count .connected = events.count .connected := by
    simp [List.count_append, hc]
  have hidle : (events ++ [event]).count .idle = events.count .idle := by
    simp [List.count_append, hi]
  have hfatal : (events ++ [event]).countP Event.isFatal = events.countP Event.isFatal := by
    simp [List.countP_append, hf]
  cases c <;> simpa only [Counts, hconnected, hidle, hfatal] using h

theorem Chapter.Step.counts (step : c.Step event d) (h : c.Counts events) :
    d.Counts (events ++ [event]) := by
  cases step with
  | log | passedOver | refusal => exact h.append nofun nofun rfl
  | report reports =>
    rcases reports.cases with ⟨path, rfl⟩ | ⟨entries, rfl⟩ | ⟨message, rfl, _⟩ <;>
      exact h.append nofun nofun rfl
  | connected | idle => simpa [Counts, List.count_append, List.countP_append, Event.isFatal] using h
  | fatal message hc =>
    have hle := h.le
    have hnone : events.countP Event.isFatal = 0 := by
      cases c with
      | «over» => exact absurd rfl hc
      | _ => exact h.2.2
    simp only [Counts, List.count_append, List.countP_append, hnone]
    simpa [Event.isFatal] using ⟨hle.1, hle.2.1⟩

theorem Told.counts (h : Told events c) : c.Counts events := by
  induction h with
  | start => exact ⟨rfl, rfl, rfl⟩
  | next _ step ih => exact step.counts ih
  | cut _ ih => exact ih.le

theorem Told.at (h : Told events c) {before after : List Event}
    (he : events = before ++ event :: after) : ∃ c d, Told before c ∧ Chapter.Step c event d := by
  induction h generalizing after with
  | start => simp at he
  | cut _ ih => exact ih he
  | @next events other c d told step ih =>
    rcases List.eq_nil_or_concat after with rfl | ⟨later, last, rfl⟩
    · obtain ⟨rfl, hlast⟩ := List.append_inj' he rfl
      cases hlast
      exact ⟨c, d, told, step⟩
    · rw [List.concat_eq_append, ← List.cons_append, ← List.append_assoc] at he
      exact ih (List.append_inj' he rfl).1

theorem Chapter.Step.of_idle (h : c.Step event d) (he : event = .idle) : c = .login := by
  cases h with
  | idle => rfl
  | report reports => rcases reports.cases with ⟨_, rfl⟩ | ⟨_, rfl⟩ | ⟨_, rfl, _⟩ <;> simp at he
  | _ => simp [Desk.refusal] at he

theorem Chapter.Step.of_result (h : c.Step event d)
    (he : (∃ path, event = .directory path) ∨ (∃ entries, event = .listing entries)) : c = .ready := by
  cases h with
  | report reports => rfl
  | _ => simp [Desk.refusal] at he

theorem Chapter.Step.of_passedOver {message : String} (h : c.Step event d)
    (he : event = .error ("Connection error: " ++ message)) : c = .dialling := by
  cases h with
  | passedOver => rfl
  | report reports =>
    rcases reports.cases with ⟨_, rfl⟩ | ⟨_, rfl⟩ | ⟨_, rfl, hn⟩
    · simp at he
    · simp at he
    · exact absurd (Event.error.inj he) (hn message)
  | refusal =>
    have hletters := congrArg String.toList (Event.error.inj he)
    simp [String.toList_append] at hletters
  | _ => simp at he

/-- Whatever can have been told has been told in order. -/
theorem Told.ordered (h : Told events c) : Event.Ordered events := by
  obtain ⟨connected, idle, fatal⟩ := h.counts.le
  refine ⟨connected, idle, fatal, ?_, ?_, ?_⟩
  · intro before after he
    obtain ⟨c, d, told, step⟩ := h.at he
    obtain rfl := step.of_idle rfl
    exact List.count_pos_iff.mp (by rw [told.counts.1]; exact Nat.one_pos)
  · intro before event after he hresult
    obtain ⟨c, d, told, step⟩ := h.at he
    obtain rfl := step.of_result hresult
    exact List.count_pos_iff.mp (by rw [told.counts.2.1]; exact Nat.one_pos)
  · intro before message after he
    obtain ⟨c, d, told, step⟩ := h.at he
    obtain rfl := step.of_passedOver rfl
    exact List.count_eq_zero.mp told.counts.1

theorem Told.logs (h : Told events c) (lines : List String) : Told (events ++ lines.map .log) c := by
  induction lines generalizing events with
  | nil => simpa using h
  | cons line lines ih => simpa using ih (h.next (.log c line))

theorem Blank.chapter (h : s.Blank) : s.chapter = .over := by
  rw [Session.chapter, h.stage, h.connecting]
  rfl

theorem chapter_of_asked (h : s.stage = .awaitingUser ∨ s.stage = .awaitingPass) : s.chapter = .login := by
  unfold Session.chapter
  rcases h with h | h <;> rw [h] <;> rfl

theorem chapter_of_loggedIn (h : s.stage = .loggedIn) : s.chapter = .ready := by
  rw [Session.chapter, h]
  rfl

theorem Told.upshot (h : Told events s.chapter) (upshot : s.Upshot s' tail) :
    Told (events ++ tail) s'.chapter := by
  cases upshot with
  | nothing hc => simpa [hc] using h
  | passedOver message hc hc' =>
    rw [hc] at h
    rw [hc']
    exact h.next (.passedOver message)
  | connected hc hc' =>
    rw [hc] at h
    rw [hc']
    exact h.next .connected
  | idle hs hs' =>
    rw [chapter_of_asked hs] at h
    rw [chapter_of_loggedIn hs']
    exact h.next .idle
  | report hc hc' reports =>
    rw [hc] at h
    rw [hc']
    exact h.next (.report reports)
  | refusal hc hc' =>
    rw [hc] at h
    rw [hc']
    exact h.next .refusal
  | fatal message hc blank =>
    rw [blank.chapter]
    exact h.next (.fatal message hc)
  | exhausted message line last hc blank =>
    rw [hc] at h
    rw [blank.chapter]
    have hlog := (h.next (.passedOver message)).next (.log _ line)
    simpa using hlog.next (.fatal last nofun)

theorem Upshot.idle_iff (upshot : s.Upshot s' tail) : .idle ∈ tail ↔
    (s.stage = .awaitingUser ∨ s.stage = .awaitingPass) ∧ s'.stage = .loggedIn := by
  have elsewhere : (s.chapter = .login → s'.chapter ≠ .ready) →
      ¬((s.stage = .awaitingUser ∨ s.stage = .awaitingPass) ∧ s'.stage = .loggedIn) := by
    rintro hn ⟨hs, hs'⟩
    exact hn (chapter_of_asked hs) (chapter_of_loggedIn hs')
  cases upshot with
  | idle hs hs' => simp [hs, hs']
  | nothing hc => simpa using elsewhere fun h => by simp [hc, h]
  | passedOver message hc hc' | connected hc hc' => simpa using elsewhere fun h => by simp [hc] at h
  | refusal hc hc' => simpa [Desk.refusal] using elsewhere fun h => by simp [hc] at h
  | fatal message hc blank => simpa using elsewhere fun h => by simp [blank.chapter]
  | exhausted message line last hc blank => simpa using elsewhere fun h => by simp [blank.chapter]
  | report hc hc' reports =>
    have hn := elsewhere fun h => by simp [hc] at h
    rcases reports.cases with ⟨_, rfl⟩ | ⟨_, rfl⟩ | ⟨_, rfl, _⟩ <;> simpa using hn

end Session

namespace Runner

variable {p : Profile} {w : Wire} {r r' : Runner} {today : Date} {input : Input}

def told (moves : List Move) : List Event :=
  moves.flatMap Move.told

theorem told_append (moves : List Move) (m : Move) : told (moves ++ [m]) = told moves ++ m.told := by
  simp [told]

theorem told_eq {events : List Event} (hn : r'.session.news = r.session.news ++ events) :
    Move.told ⟨r, input, r'⟩ = events := by
  rw [Move.told, hn]
  exact List.drop_left

theorem told_reset : Move.told ⟨r, input, { session := r.session.reset }⟩ = [] :=
  told_eq (List.append_nil _).symm

/-- The end of a login is told in the step that ends it, and in no other. -/
theorem step_idle_iff (matched : r.Matches p w) (sound : w.Sound p)
    (hs : r.step? today input = some r') : .idle ∈ Move.told ⟨r, input, r'⟩ ↔
      (r.session.stage = .awaitingUser ∨ r.session.stage = .awaitingPass) ∧
        r'.session.stage = .loggedIn := by
  rcases step_reacts matched sound hs with ⟨rfl, rfl⟩ | ⟨rfl, rfl⟩ | ⟨_, _, lines, tail, hn, upshot⟩
  · have htold : Move.told ⟨r, .request .connect, { session := r.session.beginConnect }⟩ =
        [.log "Connecting..."] := told_eq rfl
    rw [htold]
    simp [Session.beginConnect]
  · rw [told_reset]
    simp [Session.reset]
  · rw [told_eq hn, ← upshot.idle_iff]
    simp

theorem step_told (matched : r.Matches p w) (sound : w.Sound p) (hs : r.step? today input = some r')
    (hc : input ≠ .request .connect) {events : List Event}
    (h : Session.Told events r.session.chapter) :
    Session.Told (events ++ Move.told ⟨r, input, r'⟩) r'.session.chapter := by
  rcases step_reacts matched sound hs with ⟨rfl, _⟩ | ⟨rfl, rfl⟩ | ⟨_, _, lines, tail, hn, upshot⟩
  · exact absurd rfl hc
  · rw [told_reset, List.append_nil]
    exact h.cut
  · rw [told_eq hn, ← List.append_assoc]
    exact (h.logs lines).upshot upshot

theorem segment_told {hasRoots : Bool} {earlier moves : List Move} {opened : Runner}
    (run : Run (start p hasRoots) earlier opened) {events : List Event}
    (h : Session.Told events opened.session.chapter) (segment : Run opened moves r)
    (single : ∀ m ∈ moves, m.input ≠ .request .connect) :
    Session.Told (events ++ told moves) r.session.chapter := by
  induction segment with
  | start => simpa [told] using h
  | @next moves r today input r' segment hs ih =>
    obtain ⟨w, wires, matched⟩ := run_matches (run.append segment)
    have hc := single _ (List.mem_append_right _ (List.mem_singleton_self _))
    rw [told_append, ← List.append_assoc]
    exact step_told matched wires.sound hs hc (ih fun m hm => single m (List.mem_append_left _ hm))

theorem step_passedOver {t : Transport} {message : String} {exhausted : Bool}
    (hs : r.step? today input = some r')
    (hx : r.operates? input = some (t, .done (some (.endpointFailed message exhausted)))) :
    .error ("Connection error: " ++ message) ∈ Move.told ⟨r, input, r'⟩ := by
  obtain ⟨watch, hsettle⟩ := step_of_operates today hx
  obtain rfl := Option.some.inj (hs.symm.trans hsettle)
  obtain ⟨later, hn⟩ : ∃ later, (settle today r.session watch
      (t, .done (some (.endpointFailed message exhausted)))).session.news = r.session.news ++
        (.log ("Connection error: " ++ message) :: .error ("Connection error: " ++ message) :: later) := by
    cases exhausted with
    | false =>
      refine ⟨[], ?_⟩
      simp [settle, Session.notice, Notice.calls, Session.call, Session.log, Session.emit]
    | true =>
      refine ⟨[.log ("Connection error: " ++ "Connection failed."), .fatal "Connection failed."], ?_⟩
      simp [settle, Session.notice, Notice.calls, Session.call, Session.log, Session.emit,
        Session.fail, Session.reset]
  rw [told_eq hn]
  simp

/-- From one connect to the next the events come in order: a connection, a login and an end at most
once each, addresses that fail before the connection, and the results of navigation behind the login.
The end of a login is told exactly where the reply to the name or to the password leads to it. -/
theorem events_in_order {hasRoots : Bool} {earlier moves : List Move} {opened : Runner}
    (run : Run (start p hasRoots) earlier r) (connect : r.step? today (.request .connect) = some opened)
    (segment : Run opened moves r') (single : ∀ m ∈ moves, m.input ≠ .request .connect) :
    Event.Ordered (told (⟨r, .request .connect, opened⟩ :: moves)) ∧
      (∀ m ∈ moves, ∀ t message exhausted,
        m.before.operates? m.input = some (t, .done (some (.endpointFailed message exhausted))) →
        .error ("Connection error: " ++ message) ∈ m.told) ∧
      ∀ m ∈ earlier ++ ⟨r, .request .connect, opened⟩ :: moves, .idle ∈ m.told ↔
        (m.before.session.stage = .awaitingUser ∨ m.before.session.stage = .awaitingPass) ∧
          m.after.session.stage = .loggedIn := by
  have hopened := step_interrupting rfl connect
  have whole := (run.next connect).append segment
  refine ⟨?_, ?_, ?_⟩
  · have hfirst : told [⟨r, .request .connect, opened⟩] = [.log "Connecting..."] := by
      rw [hopened, told, List.flatMap_singleton]
      exact told_eq rfl
    have hstart : Session.Told [.log "Connecting..."] opened.session.chapter := by
      rw [hopened]
      exact Session.Told.start.next (.log _ _)
    have htold := segment_told (run.next connect) hstart segment single
    rw [← hfirst] at htold
    simpa [told] using htold.ordered
  · intro m hm t message exhausted hx
    obtain ⟨_, today, _, hs⟩ := segment.of_mem hm
    exact step_passedOver hs hx
  · intro m hm
    obtain ⟨_, today, before, hs⟩ := whole.of_mem (by simpa using hm)
    obtain ⟨w, wires, matched⟩ := run_matches before
    exact step_idle_iff matched wires.sound hs

/-- The first address fails, the second leads to a login without a password. -/
theorem events_up_to_login :
    ∃ p earlier r today opened moves r', Run (start p true) earlier r ∧
      r.step? today (.request .connect) = some opened ∧ Run opened moves r' ∧
      (∀ m ∈ moves, m.input ≠ .request .connect) ∧
      told (⟨r, .request .connect, opened⟩ :: moves) =
        [.log "Connecting...", .log "Connection error: 10.0.0.1:21: refused",
          .error "Connection error: 10.0.0.1:21: refused", .log "Connected.", .connected,
          .log "220 Ready", .log ">>> USER user", .log "230 Welcome", .idle] ∧
      Event.Ordered (told (⟨r, .request .connect, opened⟩ :: moves)) := by
  let p : Profile :=
    { host := "localhost", username := "user", password := "secret", authTls := false }
  let day : Date := ⟨2024, 1, 1, by decide⟩
  let name : Argument := ⟨"user", by decide, by decide⟩
  let inputs : List Input :=
    [.proceed, .proceed,
      .answer (.found [⟨.v4 ⟨#[10, 0, 0, 1], rfl⟩, 21⟩, ⟨.v4 ⟨#[10, 0, 0, 2], rfl⟩, 21⟩]), .proceed,
      .proceed, .answer (.refused "refused"), .proceed, .proceed, .answer (.accepted 0), .proceed,
      .proceed, .told "220 Ready\r\n"] ++
    Input.exchanged (.user name) "230 Welcome\r\n"
  have h : ((rehearse p [.proceed]).bind fun x => (x.2.step? day (.request .connect)).bind fun opened =>
      (opened.play (inputs.map fun input => (day, input))).map fun y =>
        (y.1.all fun m => decide (m.input ≠ .request .connect),
          told (⟨x.2, .request .connect, opened⟩ :: y.1))) =
      some (true, [.log "Connecting...", .log "Connection error: 10.0.0.1:21: refused",
        .error "Connection error: 10.0.0.1:21: refused", .log "Connected.", .connected,
        .log "220 Ready", .log ">>> USER user", .log "230 Welcome", .idle]) := by decide +kernel
  obtain ⟨⟨earlier, r⟩, hfirst, h⟩ := Option.bind_eq_some_iff.mp h
  obtain ⟨opened, connect, h⟩ := Option.bind_eq_some_iff.mp h
  obtain ⟨⟨moves, r'⟩, hmoves, h⟩ := Option.map_eq_some_iff.mp h
  obtain ⟨hall, htold⟩ := Prod.mk.inj h
  have single : ∀ m ∈ moves, m.input ≠ .request .connect := by simpa using hall
  have run := run_of_play hfirst
  have segment := run_of_play hmoves
  exact ⟨p, earlier, r, day, opened, moves, r', run, connect, segment, single, htold,
    (events_in_order run connect segment single).1⟩

end Runner

end FtpControl

import FtpControl.Proofs.EventOrder

namespace FtpControl

namespace Session

variable {s s' : Session} {tail : List Event}

theorem Upshot.ends (upshot : s.Upshot s' tail) {message : String} (hm : .fatal message ∈ tail) :
    s'.Blank ∧ ∃ before last, tail = before ++ [.fatal last] ∧ ∀ text, .fatal text ∉ before := by
  cases upshot with
  | fatal last _ blank => exact ⟨blank, [], last, rfl, fun _ => nofun⟩
  | exhausted message line last _ blank => exact ⟨blank, [_, _], last, rfl, by simp⟩
  | report _ _ reports =>
    rcases reports.cases with ⟨_, rfl⟩ | ⟨_, rfl⟩ | ⟨_, rfl, _⟩ <;> simp at hm
  | _ => simp [Desk.refusal] at hm

end Session

namespace Runner

variable {p : Profile} {w : Wire} {r r' : Runner} {today : Date} {input : Input}

/-- The session is at its end, and no operation is under way. -/
structure Ended (r : Runner) : Prop where
  blank : r.session.Blank
  resting : r.phase = .head ∨ r.phase = .idle ∨ r.phase = .over

theorem Ended.step (ended : r.Ended) (hs : r.step? today input = some r')
    (hc : input ≠ .request .connect) :
    r'.Ended ∧ Move.deeds ⟨r, input, r'⟩ = [] ∧
      Move.told ⟨r, input, r'⟩ = (Move.asked ⟨r, input, r'⟩).map fun _ => Desk.refusal := by
  obtain ⟨s, phase⟩ := r
  obtain ⟨blank, resting⟩ := ended
  dsimp only at blank resting
  have refused : ∀ {request : Request}, request.interrupts = false →
      s.handle request = s.emit Desk.refusal := by
    intro request hi
    cases request with
    | connect | disconnect => simp [Request.interrupts] at hi
    | changeDirectory path | listDirectory =>
      simp [Session.handle, Session.navigate, blank.stage, blank.connecting, Stage.isAwaiting,
        Desk.refusal]
  rcases resting with rfl | rfl | rfl
  · cases input with
    | proceed =>
      have hr : r' = ⟨s, .idle⟩ := by
        simpa [step?, atHead, Transport.next?, blank.queue, blank.stage, eq_comm] using hs
      rw [hr]
      exact ⟨⟨blank, Or.inr (Or.inl rfl)⟩, rfl, told_eq (List.append_nil _).symm⟩
    | request | answer | close => simp [step?] at hs
  · cases input with
    | request request =>
      obtain rfl : r' = { session := s.handle request } := (Option.some.inj hs).symm
      cases request with
      | connect => exact absurd rfl hc
      | disconnect =>
        exact ⟨⟨s.reset_blank, Or.inl rfl⟩, rfl, told_eq (List.append_nil _).symm⟩
      | changeDirectory path | listDirectory =>
        rw [refused rfl]
        exact ⟨⟨⟨blank.stage, blank.connecting, blank.listing, blank.deferred, blank.stream,
          blank.queue, blank.candidates, blank.buffer⟩, Or.inl rfl⟩, rfl, told_eq rfl⟩
    | close =>
      obtain rfl : r' = finish s := (Option.some.inj hs).symm
      exact ⟨⟨⟨blank.stage, blank.connecting, blank.listing, blank.deferred, rfl, rfl, rfl, rfl⟩,
        Or.inr (Or.inr rfl)⟩, rfl, told_eq (List.append_nil _).symm⟩
    | proceed | answer => simp [step?] at hs
  · simp [step?] at hs

theorem Ended.run {first : Runner} {moves : List Move} (ended : first.Ended) (run : Run first moves r)
    (single : ∀ m ∈ moves, m.input ≠ .request .connect) :
    r.Ended ∧ ∀ m ∈ moves, m.deeds = [] ∧ m.told = m.asked.map fun _ => Desk.refusal := by
  induction run with
  | start => exact ⟨ended, by simp⟩
  | @next moves r today input r' run hs ih =>
    obtain ⟨hended, hmoves⟩ := ih fun m hm => single m (List.mem_append_left _ hm)
    have hc := single _ (List.mem_append_right _ (List.mem_singleton_self _))
    obtain ⟨hended', hmove⟩ := hended.step hs hc
    refine ⟨hended', fun m hm => ?_⟩
    rcases List.mem_append.mp hm with hm | hm
    · exact hmoves m hm
    · rw [List.mem_singleton.mp hm]
      exact hmove

theorem step_fatal (matched : r.Matches p w) (sound : w.Sound p) (hs : r.step? today input = some r')
    {message : String} (hm : .fatal message ∈ Move.told ⟨r, input, r'⟩) :
    r'.session.Blank ∧ ∃ before last, Move.told ⟨r, input, r'⟩ = before ++ [.fatal last] ∧
      ∀ text, .fatal text ∉ before := by
  rcases step_reacts matched sound hs with ⟨rfl, rfl⟩ | ⟨rfl, rfl⟩ | ⟨_, _, lines, tail, hn, upshot⟩
  · have htold : Move.told ⟨r, .request .connect, { session := r.session.beginConnect }⟩ =
        [.log "Connecting..."] := told_eq rfl
    simp [htold] at hm
  · simp [told_reset] at hm
  · rw [told_eq hn] at hm ⊢
    obtain ⟨blank, before, last, rfl, hnone⟩ := upshot.ends (by simpa using hm)
    refine ⟨blank, lines.map .log ++ before, last, (List.append_assoc _ _ _).symm, ?_⟩
    simpa using hnone

/-- A disconnect is taken wherever an operation can be under way, and nothing is told of it. After a
disconnect, or after a fatal error, which is the last that is told, nothing is left of the connection.
Until the next connect nothing is dialled, sent or received, and all that is told is one refusal for each
request. -/
theorem ended_for_good {hasRoots : Bool} {moves : List Move} (run : Run (start p hasRoots) moves r) :
    (r.phase ≠ .head → r.phase ≠ .over →
      ∀ today, ∃ r', r.step? today (.request .disconnect) = some r') ∧
    ∀ today input r', r.step? today input = some r' →
      (input = .request .disconnect → r'.session.news = r.session.news) ∧
      ((∃ message, .fatal message ∈ Move.told ⟨r, input, r'⟩) →
        ∃ before last, Move.told ⟨r, input, r'⟩ = before ++ [.fatal last] ∧
          ∀ text, .fatal text ∉ before) ∧
      (input = .request .disconnect ∨ (∃ message, .fatal message ∈ Move.told ⟨r, input, r'⟩) →
        r'.Ended ∧ ∀ later last, Run r' later last → (∀ m ∈ later, m.input ≠ .request .connect) →
          last.Ended ∧ ∀ m ∈ later, m.deeds = [] ∧
            m.told = m.asked.map fun _ => .error "Not logged in.") := by
  obtain ⟨w, wires, matched⟩ := run_matches run
  refine ⟨?_, ?_⟩
  · intro hhead hover today
    obtain ⟨s, phase⟩ := r
    cases phase with
    | head => exact absurd rfl hhead
    | «over» => exact absurd rfl hover
    | idle | ready | waiting => exact ⟨_, rfl⟩
  · intro today input r' hs
    refine ⟨?_, ?_, ?_⟩
    · rintro rfl
      rw [step_interrupting rfl hs]
      rfl
    · rintro ⟨message, hm⟩
      exact (step_fatal matched wires.sound hs hm).2
    · intro hends
      have hblank : r'.session.Blank := by
        rcases hends with rfl | ⟨message, hm⟩
        · rw [step_interrupting rfl hs]
          exact r.session.reset_blank
        · exact (step_fatal matched wires.sound hs hm).1
      obtain ⟨w', wires', matched'⟩ := run_matches (run.next hs)
      have ended : r'.Ended := ⟨hblank, matched'.resting wires'.sound hblank.chapter⟩
      exact ⟨ended, fun later last more single => ended.run more single⟩

/-- While the reply to the password is due, the owner disconnects, or the server does. -/
theorem nothing_after_disconnect :
    ∃ p moves r today r' later last closed, Run (start p true) moves r ∧
      r.session.stage = .awaitingPass ∧ r.step? today (.request .disconnect) = some r' ∧
      Run r' later last ∧ told later = [.error "Not logged in.", .error "Not logged in."] ∧
      r'.session.news = r.session.news ∧ last.Ended ∧
      r.step? today (.answer .ended) = some closed ∧
      Move.told ⟨r, .answer .ended, closed⟩ = [.log "Connection error: Connection closed by server.",
        .fatal "Connection closed by server."] ∧ closed.Ended := by
  let p : Profile :=
    { host := "localhost", username := "user", password := "secret", authTls := false }
  let day : Date := ⟨2024, 1, 1, by decide⟩
  let text (line : String) (h : line.toList ≠ [] ∧ '\r' ∉ line.toList ∧ '\n' ∉ line.toList) :
    Argument := ⟨line, h.1, h.2⟩
  let inputs := Input.welcomed 0 "220 Ready\r\n" ++
    Input.exchanged (.user (text "user" (by decide))) "331 Password\r\n" ++
    (Input.exchanged (.pass (text "secret" (by decide))) "").dropLast
  let after : List Input := [.proceed, .request .listDirectory, .proceed, .request .disconnect,
    .proceed, .request (.changeDirectory "/pub")]
  have h : ((rehearse p inputs).bind fun x => (x.2.step? day (.request .disconnect)).bind fun r' =>
      (r'.play (after.map fun input => (day, input))).bind fun y =>
        (x.2.step? day (.answer .ended)).map fun closed =>
          (x.2.session.stage, y.1.all fun m => decide (m.input ≠ .request .connect), told y.1,
            Move.told ⟨x.2, .answer .ended, closed⟩)) =
      some (.awaitingPass, true, [.error "Not logged in.", .error "Not logged in."],
        [.log "Connection error: Connection closed by server.",
          .fatal "Connection closed by server."]) := by decide +kernel
  obtain ⟨⟨moves, r⟩, hplay, h⟩ := Option.bind_eq_some_iff.mp h
  obtain ⟨r', disconnect, h⟩ := Option.bind_eq_some_iff.mp h
  obtain ⟨⟨later, last⟩, hlater, h⟩ := Option.bind_eq_some_iff.mp h
  obtain ⟨closed, ends, h⟩ := Option.map_eq_some_iff.mp h
  simp only [Prod.mk.injEq] at h
  obtain ⟨stage, hall, htold, hfatal⟩ := h
  have single : ∀ m ∈ later, m.input ≠ .request .connect := by simpa using hall
  have run := run_of_play hplay
  have more := run_of_play hlater
  have hm : .fatal "Connection closed by server." ∈ Move.told ⟨r, .answer .ended, closed⟩ := by
    rw [hfatal]
    simp
  obtain ⟨silent, _, stays⟩ := (ended_for_good run).2 _ _ _ disconnect
  obtain ⟨_, _, lost⟩ := (ended_for_good run).2 _ _ _ ends
  exact ⟨p, moves, r, day, r', later, last, closed, run, stage, disconnect, more, htold, silent rfl,
    ((stays (Or.inl rfl)).2 later last more single).1, ends, hfatal,
    (lost (Or.inr ⟨_, hm⟩)).1⟩

end Runner

end FtpControl

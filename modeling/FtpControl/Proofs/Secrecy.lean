import FtpControl.Proofs.Simulation

namespace FtpControl

namespace Deed

def plain (deeds : List Deed) : List UInt8 :=
  written (fun stream => !stream.secure) deeds

theorem plain_latest_append {d : Deed} (deeds : List Deed) (ho : ∀ c, d ≠ .opened c)
    (hw : ∀ stream bytes, d ≠ .wrote stream bytes) :
    plain (latest (deeds ++ [d])) = plain (latest deeds) := by
  rw [latest_append deeds ho]
  exact written_append_singleton _ _ hw

end Deed

theorem Permits.stage_ne_welcome {p : Profile} {standing : Standing} {command : Command}
    {stage : Stage} (h : Permits p standing command stage) : stage ≠ .awaitingWelcome := by
  cases h <;> nofun

theorem Standing.grant_stage {line : String} {code : UInt16} {stage : Stage} {later : Standing}
    (h : grant line code stage = some later) : later.stage = stage ∨ later = .ready := by
  cases stage with
  | awaitingPass | awaitingStat =>
    cases h
    exact Or.inr rfl
  | awaitingUser =>
    simp only [grant] at h
    split at h
    next => cases h; exact Or.inr rfl
    next => cases h; exact Or.inl rfl
  | awaitingPwd =>
    simp only [grant] at h
    split at h
    next => cases h; exact Or.inr rfl
    next => simp at h
  | _ =>
    cases h
    exact Or.inl rfl

theorem Standing.hear_stage {line : String} {standing later : Standing}
    (h : standing.hear line = some later) : later.stage = standing.stage ∨ later = .ready := by
  cases standing with
  | granted _ | encrypted | ready =>
    cases h
    exact Or.inl rfl
  | due stage =>
    simp only [hear] at h
    split at h
    next =>
      split at h
      next => cases h; exact Or.inl rfl
      next => simp at h
    next => cases h; exact Or.inl rfl
    next => simp at h
    next => exact grant_stage h

/-- Nothing but `AUTH TLS` has gone out in plain, and nothing at all before the welcome. -/
structure Link.Discreet (deeds : List Deed) (link : Link) : Prop where
  plain : link.stream.secure = false →
    Deed.plain (Deed.latest deeds) ++ link.unsent <+: LineBuffer.encode Command.authTls.line
  fresh : link.standing.stage = .awaitingWelcome →
    Deed.plain (Deed.latest deeds) = [] ∧ link.unsent = []

theorem Link.Discreet.quiet {deeds : List Deed} {d : Deed} {link later : Link}
    (h : link.Discreet deeds) (ho : ∀ c, d ≠ .opened c) (hw : ∀ stream bytes, d ≠ .wrote stream bytes)
    (stream : later.stream = link.stream ∨ later.stream.secure = true)
    (unsent : later.unsent = link.unsent)
    (stage : later.standing.stage = .awaitingWelcome → link.standing.stage = .awaitingWelcome) :
    later.Discreet (deeds ++ [d]) := by
  have hsame := Deed.plain_latest_append deeds ho hw
  refine ⟨?_, ?_⟩
  · intro hs
    rw [hsame, unsent]
    rcases stream with stream | secure
    · rw [stream] at hs
      exact h.plain hs
    · simp [secure] at hs
  · intro hs
    rw [hsame, unsent]
    exact h.fresh (stage hs)

namespace Wire

variable {p : Profile}

/-- The first command on a connection that is to be encrypted is `AUTH TLS`, and the next one is
sent encrypted. -/
theorem began_plain {standing : Standing} {command : Command} {stage : Stage} {secure : Bool}
    (tls : p.authTls = true) (permits : Permits p standing command stage)
    (fits : standing.Fits p.authTls secure) (hplain : secure = false) :
    standing.stage = .awaitingWelcome ∧ command = .authTls ∧ stage = .awaitingAuthTls := by
  subst hplain
  cases permits with
  | authTls _ => exact ⟨rfl, rfl, rfl⟩
  | user plain _ => simp [tls] at plain
  | pbszZero | userEncrypted _ => exact absurd fits.2 (by simp)
  | pass _ | cwd _ | pwd | statList => exact absurd (fits.trans tls) (by simp)

theorem Step.discreet {deeds : List Deed} {w w' : Wire} {d : Deed} (tls : p.authTls = true)
    (sound : w.Sound p) (h : Step p w d w')
    (plain : Deed.plain (Deed.latest deeds) <+: LineBuffer.encode Command.authTls.line)
    (discreet : ∀ link, w = .live link → link.Discreet deeds) :
    Deed.plain (Deed.latest (deeds ++ [d])) <+: LineBuffer.encode Command.authTls.line ∧
      ∀ link, w' = .live link → link.Discreet (deeds ++ [d]) := by
  have kept : (∀ c, d ≠ .opened c) → (∀ stream bytes, d ≠ .wrote stream bytes) →
      Deed.plain (Deed.latest (deeds ++ [d])) <+: LineBuffer.encode Command.authTls.line := by
    intro ho hw
    rw [Deed.plain_latest_append deeds ho hw]
    exact plain
  cases h with
  | opened w c =>
    have hempty : Deed.latest (deeds ++ [.opened c]) = [] := Deed.latest_append_opened deeds c
    refine ⟨?_, ?_⟩
    · rw [hempty]
      exact List.nil_prefix
    · intro link hlive
      cases hlive
      refine ⟨?_, ?_⟩
      · intro _
        rw [hempty]
        exact List.nil_prefix
      · intro _
        rw [hempty]
        exact ⟨rfl, rfl⟩
  | @began link command stage permits unsent =>
    refine ⟨kept (by simp) (by simp), ?_⟩
    intro later hlive
    cases hlive
    refine ⟨?_, ?_⟩
    · intro hs
      -- On a plain stream only the first command can be sent, and nothing has gone out yet.
      obtain ⟨hw, rfl, _⟩ := began_plain tls permits sound hs
      have hempty := ((discreet link rfl).fresh hw).1
      have hsame := Deed.plain_latest_append deeds
        (d := .began link.stream Command.authTls.line) (by simp) (by simp)
      rw [hsame, hempty]
      exact List.prefix_refl _
    · intro hs
      exact absurd hs permits.stage_ne_welcome
  | @wrote link bytes rest unsent =>
    have hlink := discreet link rfl
    have hsent : Deed.plain (Deed.latest (deeds ++ [.wrote link.stream bytes])) =
        Deed.plain (Deed.latest deeds) ++ if !link.stream.secure then bytes else [] := by
      have happend : Deed.latest (deeds ++ [.wrote link.stream bytes]) =
          Deed.latest deeds ++ [.wrote link.stream bytes] := Deed.latest_append deeds (by simp)
      rw [happend]
      exact Deed.written_append_wrote _ _ _ _
    have hgone : link.stream.secure = false →
        Deed.plain (Deed.latest deeds) ++ bytes ++ rest <+:
          LineBuffer.encode Command.authTls.line := by
      intro hs
      have hp := hlink.plain hs
      rw [unsent, ← List.append_assoc] at hp
      exact hp
    refine ⟨?_, ?_⟩
    · rw [hsent]
      by_cases hs : link.stream.secure = true
      · simpa [hs] using plain
      · have hs' : link.stream.secure = false := by simpa using hs
        rw [hs']
        exact (List.prefix_append _ rest).trans (hgone hs')
    · intro later hlive
      cases hlive
      refine ⟨?_, ?_⟩
      · intro hs
        have hs' : link.stream.secure = false := hs
        rw [hsent]
        simpa [hs'] using hgone hs'
      · intro hs
        obtain ⟨hempty, hnone⟩ := hlink.fresh hs
        have hboth := List.append_eq_nil_iff.mp (unsent.symm.trans hnone)
        rw [hsent, hempty, hboth.1]
        exact ⟨by simp, hboth.2⟩
  | @received link bytes _ _ =>
    refine ⟨kept (by simp) (by simp), ?_⟩
    intro later hlive
    cases hlive
    exact (discreet link rfl).quiet (by simp) (by simp) (Or.inl rfl) rfl fun hs => hs
  | @heard link line rest _ _ _ =>
    refine ⟨kept (by simp) (by simp), ?_⟩
    intro later hl
    obtain ⟨standing, hs, rfl⟩ := Link.of_move_live hl
    refine (discreet link rfl).quiet (by simp) (by simp) (Or.inl rfl) rfl fun hw => ?_
    rcases Standing.hear_stage hs with hstage | rfl
    · rw [← hstage]
      exact hw
    · simp [Standing.stage] at hw
  | @secured link standing _ =>
    refine ⟨kept (by simp) (by simp), ?_⟩
    intro later hlive
    cases hlive
    refine (discreet link rfl).quiet (by simp) (by simp) (Or.inr rfl) rfl fun hw => ?_
    simp [Standing.stage] at hw
  | unsecured _ _ => exact ⟨kept (by simp) (by simp), (by simp)⟩

theorem Runs.discreet {deeds : List Deed} {w : Wire} (tls : p.authTls = true) (runs : Runs p deeds w) :
    Deed.plain (Deed.latest deeds) <+: LineBuffer.encode Command.authTls.line ∧
      ∀ link, w = .live link → link.Discreet deeds := by
  induction runs with
  | start => exact ⟨List.nil_prefix, nofun⟩
  | next runs hs ih => exact hs.discreet tls runs.sound ih.1 ih.2

end Wire

theorem Session.Rests.vacant {s : Session} {ops : List Operation} (h : s.Rests .shut ops) :
    s.transport.stream = none := by
  cases h with
  | closed _ closed => exact closed.vacant.stream
  | resolving _ dialling _ | dialling _ dialling _ => exact dialling.vacant.stream

namespace Runner

variable {p : Profile}

theorem Matches.vacant {r : Runner} (matched : r.Matches p .shut) :
    r.session.transport.stream = none ∧
      ∀ wait watch, r.phase = .waiting wait watch → wait.unsent = 0 := by
  obtain ⟨s, phase⟩ := r
  obtain ⟨_, matched⟩ := matched
  cases phase with
  | head => exact ⟨Session.Rests.vacant matched, nofun⟩
  | idle => exact ⟨matched.1.vacant.stream, nofun⟩
  | «over» => exact ⟨matched, nofun⟩
  | ready op watch =>
    cases watch with
    | false => exact ⟨Session.Rests.vacant matched, nofun⟩
    | true =>
      obtain ⟨_, link, hl, _⟩ := matched
      cases hl
  | waiting wait watch =>
    dsimp only at matched
    generalize s.transport.queue = queue at matched
    cases matched with
    | lookup _ host port dialling _ =>
      refine ⟨dialling.vacant.stream, ?_⟩
      rintro wait watch ⟨rfl, rfl⟩
      rfl
    | dial _ endpoint dialling =>
      refine ⟨dialling.vacant.stream, ?_⟩
      rintro wait watch ⟨rfl, rfl⟩
      rfl

/-- After a handshake that has failed, or was dropped, no stream is left. -/
theorem lost_vacant {hasRoots : Bool} {moves : List Move} {r : Runner} {m : Move}
    (run : Run (start p hasRoots) moves r) (hm : m ∈ moves) (hl : m.lost ≠ []) :
    m.after.session.transport.stream = none ∧
      ∀ wait watch, m.after.phase = .waiting wait watch → wait.unsent = 0 := by
  obtain ⟨earlier, today, hrun, hs⟩ := run.of_mem hm
  obtain ⟨w, runs, matched⟩ := run_matches (hrun.next hs)
  obtain ⟨c, hc⟩ := m.lost_cases.resolve_left hl
  rw [deeds_append, Move.deeds, hc, ← List.append_assoc] at runs
  obtain ⟨_, _, step⟩ := runs.of_append_singleton
  cases step with
  | unsecured _ _ => exact matched.vacant

/-- In every run with a profile that asks for encryption, `AUTH TLS` is all that is sent in plain
on a connection. Whatever else is sent goes out after the handshake on that connection has succeeded,
and a handshake that does not succeed leaves no stream. -/
theorem plain_only_authTls {hasRoots : Bool} {moves : List Move} {r : Runner}
    (tls : p.authTls = true) (run : Run (start p hasRoots) moves r) :
    (∀ before d after, deeds moves = before ++ d :: after →
      ∀ stream, d.outgoing? = some stream →
        Deed.connection? before = some stream.connection ∧
        (∀ c, .unsecured c ∉ Deed.latest before) ∧
        (stream.secure = true ↔ .secured stream.connection ∈ Deed.latest before) ∧
        (stream.secure = false → ∀ line, d = .began stream line → line = Command.authTls.line)) ∧
    (∀ before, before <+: deeds moves →
      Deed.plain (Deed.latest before) <+: LineBuffer.encode Command.authTls.line) ∧
    ∀ m ∈ moves, m.lost ≠ [] →
      m.after.session.transport.stream = none ∧
      ∀ wait watch, m.after.phase = .waiting wait watch → wait.unsent = 0 := by
  obtain ⟨w, runs, _⟩ := run_matches run
  refine ⟨?_, ?_, fun m hm hl => lost_vacant run hm hl⟩
  · intro before d after he stream hd
    rw [he] at runs
    obtain ⟨u, v, hu, step⟩ := runs.step_at
    have sound := hu.sound
    cases step with
    | @began link command stage permits _ =>
      cases hd
      obtain ⟨connection, kept, secured⟩ := hu.recorded
      refine ⟨connection, kept, secured, ?_⟩
      rintro plain line ⟨rfl⟩
      obtain ⟨_, rfl, _⟩ := Wire.began_plain tls permits sound plain
      rfl
    | wrote _ =>
      cases hd
      obtain ⟨connection, kept, secured⟩ := hu.recorded
      exact ⟨connection, kept, secured, fun _ => nofun⟩
    | opened _ _ | received _ _ _ | heard _ _ _ | secured _ _ | unsecured _ _ => simp [Deed.outgoing?] at hd
  · rintro before ⟨later, he⟩
    rw [← he] at runs
    obtain ⟨u, hu⟩ := runs.of_append
    exact (hu.discreet tls).1

theorem password_after_handshake :
    ∃ p moves r before after, p.authTls = true ∧ Run (start p true) moves r ∧
      deeds moves = before ++ .began ⟨0, true⟩ "PASS secret" :: after ∧
      .secured 0 ∈ Deed.latest before := by
  let p : Profile := { host := "localhost", username := "user", password := "secret" }
  let name : Argument := ⟨"user", by decide, by decide⟩
  let inputs := Input.welcomed 0 "220 Ready\r\n" ++ Input.exchanged .authTls "234 Proceed\r\n" ++
    Input.shaken ++ Input.exchanged .pbszZero "200 Ok\r\n" ++
    Input.exchanged (.user name) "331 Password\r\n" ++ [.proceed, .proceed]
  have h : (rehearse p inputs).map (fun x => decide (.began ⟨0, true⟩ "PASS secret" ∈ deeds x.1)) =
      some true := by decide +kernel
  obtain ⟨⟨moves, r⟩, hplay, hd⟩ := Option.map_eq_some_iff.mp h
  have run := run_of_play hplay
  obtain ⟨before, after, he⟩ := List.append_of_mem (of_decide_eq_true hd)
  have secured := ((plain_only_authTls rfl run).1 before _ after he _ rfl).2.2.1.mp rfl
  exact ⟨p, moves, r, before, after, rfl, run, he, secured⟩

end Runner

end FtpControl

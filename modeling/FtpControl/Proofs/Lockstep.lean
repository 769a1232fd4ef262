import FtpControl.Proofs.Dialogue
import FtpControl.Proofs.LoopHead
import FtpControl.Proofs.Replies

namespace FtpControl

def Deed.encoded (deeds : List Deed) : List UInt8 :=
  (Deed.begun deeds).flatMap LineBuffer.encode

def Deed.sent (deeds : List Deed) : List UInt8 :=
  Deed.written (fun _ => true) deeds

/-- On each connection the commands are the beginning of a word, each goes out whole, and one follows
on another only after a good reply. A bad reply ends it all. -/
structure Deed.Lockstep (p : Profile) (deeds : List Deed) : Prop where
  words : ∀ before, before <+: deeds → ∃ commands, Deed.Spells p (Deed.latest before) commands ∧
    ∀ asked, Deed.Suits asked (Deed.latest before) →
      ∃ rest, commands ++ rest ∈ Dialogue.words p.authTls asked
  bytes : ∀ before, before <+: deeds →
    Deed.sent (Deed.latest before) <+: Deed.encoded (Deed.latest before)
  turns : ∀ before stream line after, deeds = before ++ .began stream line :: after →
    Deed.connection? before = some stream.connection ∧
    Deed.sent (Deed.latest before) = Deed.encoded (Deed.latest before) ∧
    ∃ stage reply since, Deed.Answered (Deed.latest before) stage reply since ∧
      Deed.Cleared stream.connection stage reply since
  stops : ∀ before stage bytes line after rest,
    deeds = before ++ .heard stage bytes line :: (after ++ rest) →
    stage.isAwaiting = true → Reply.Spoils stage line → (∀ c, .opened c ∉ after) → after = []

namespace Wire

variable {p : Profile}

/-- What has gone out and what is still to go out are the lines that have been sent. -/
theorem Step.sent {deeds : List Deed} {w w' : Wire} {d : Deed} (h : Step p w d w')
    (sent : Deed.sent (Deed.latest deeds) <+: Deed.encoded (Deed.latest deeds))
    (hlink : ∀ link, w = .live link →
      Deed.sent (Deed.latest deeds) ++ link.unsent = Deed.encoded (Deed.latest deeds)) :
    Deed.sent (Deed.latest (deeds ++ [d])) <+: Deed.encoded (Deed.latest (deeds ++ [d])) ∧
      ∀ link, w' = .live link →
        Deed.sent (Deed.latest (deeds ++ [d])) ++ link.unsent =
          Deed.encoded (Deed.latest (deeds ++ [d])) := by
  have hlatest : (∀ c, d ≠ .opened c) → Deed.latest (deeds ++ [d]) = Deed.latest deeds ++ [d] :=
    Deed.latest_append deeds
  have quiet : (∀ c, d ≠ .opened c) → (∀ stream bytes, d ≠ .wrote stream bytes) →
      Deed.sent (Deed.latest (deeds ++ [d])) = Deed.sent (Deed.latest deeds) := by
    intro ho hw
    rw [hlatest ho]
    exact Deed.written_append_singleton _ _ hw
  have silent : (∀ c, d ≠ .opened c) → (∀ stream line, d ≠ .began stream line) →
      Deed.encoded (Deed.latest (deeds ++ [d])) = Deed.encoded (Deed.latest deeds) := by
    intro ho hb
    rw [hlatest ho, Deed.encoded, Deed.begun_append_singleton _ hb]
    rfl
  cases h with
  | opened w c =>
    have hempty : Deed.latest (deeds ++ [.opened c]) = [] := Deed.latest_append_opened deeds c
    rw [hempty]
    refine ⟨List.prefix_refl _, ?_⟩
    intro link hlive
    cases hlive
    rfl
  | @began link command stage _ unsent =>
    have hencoded : Deed.encoded (Deed.latest (deeds ++ [.began link.stream command.line])) =
        Deed.encoded (Deed.latest deeds) ++ LineBuffer.encode command.line := by
      rw [hlatest (by simp), Deed.encoded, Deed.begun_append_began, List.flatMap_append]
      simp [Deed.encoded]
    rw [quiet (by simp) (by simp), hencoded]
    refine ⟨sent.trans (List.prefix_append _ _), ?_⟩
    intro later hlive
    cases hlive
    have hall := hlink link rfl
    rw [unsent, List.append_nil] at hall
    rw [hall]
  | @wrote link bytes rest unsent =>
    have hsent : Deed.sent (Deed.latest (deeds ++ [.wrote link.stream bytes])) =
        Deed.sent (Deed.latest deeds) ++ bytes := by
      rw [hlatest (by simp)]
      exact Deed.written_append_wrote _ _ _ _
    have hall := hlink link rfl
    rw [unsent, ← List.append_assoc] at hall
    rw [hsent, silent (by simp) (by simp)]
    refine ⟨⟨rest, hall⟩, ?_⟩
    intro later hlive
    cases hlive
    exact hall
  | @received link bytes _ _ =>
    rw [quiet (by simp) (by simp), silent (by simp) (by simp)]
    refine ⟨sent, ?_⟩
    intro later hlive
    cases hlive
    exact hlink link rfl
  | @heard link line rest _ _ _ =>
    rw [quiet (by simp) (by simp), silent (by simp) (by simp)]
    refine ⟨sent, ?_⟩
    intro later hl
    obtain ⟨standing, hh, rfl⟩ := Link.of_move_live hl
    exact hlink link rfl
  | @secured link _ _ =>
    rw [quiet (by simp) (by simp), silent (by simp) (by simp)]
    refine ⟨sent, ?_⟩
    intro later hlive
    cases hlive
    exact hlink link rfl
  | unsecured _ _ =>
    rw [quiet (by simp) (by simp), silent (by simp) (by simp)]
    exact ⟨sent, (by simp)⟩

theorem Runs.sent {deeds : List Deed} {w : Wire} (runs : Runs p deeds w) :
    Deed.sent (Deed.latest deeds) <+: Deed.encoded (Deed.latest deeds) ∧
      ∀ link, w = .live link →
        Deed.sent (Deed.latest deeds) ++ link.unsent = Deed.encoded (Deed.latest deeds) := by
  induction runs with
  | start => exact ⟨List.prefix_refl _, nofun⟩
  | next _ hs ih => exact hs.sent ih.1 ih.2

theorem Runs.lockstep {deeds : List Deed} {w : Wire} (runs : Runs p deeds w) :
    Deed.Lockstep p deeds := by
  refine ⟨?_, ?_, ?_, ?_⟩
  · rintro before ⟨later, rfl⟩
    obtain ⟨u, hu⟩ := runs.of_append
    obtain ⟨commands, spells, _, hprefix⟩ := hu.spells
    exact ⟨commands, spells, hprefix⟩
  · rintro before ⟨later, rfl⟩
    obtain ⟨u, hu⟩ := runs.of_append
    exact hu.sent.1
  · rintro before stream line after rfl
    obtain ⟨u, v, hu, step⟩ := runs.step_at
    cases step with
    | @began link command stage permits unsent =>
      have hall := hu.sent.2 link rfl
      rw [unsent, List.append_nil] at hall
      exact ⟨hu.recorded.connection, hall, permits.answered hu.replied⟩
  · rintro before stage bytes line after rest rfl awaiting spoils ho
    have hsplit : before ++ .heard stage bytes line :: (after ++ rest) =
        (before ++ .heard stage bytes line :: after) ++ rest := by simp
    rw [hsplit] at runs
    obtain ⟨u, hu⟩ := runs.of_append
    exact hu.spoilt awaiting spoils ho

end Wire

theorem Deed.heard_ofBuffer {stage at' : Stage} {buffer bytes : List UInt8} {line : String}
    (h : .heard at' bytes line ∈ Deed.ofBuffer stage buffer) :
    at' = stage ∧ ∃ rest, LineBuffer.takeLine? buffer = some (line, rest) := by
  unfold Deed.ofBuffer at h
  split at h
  next text rest hl =>
    cases List.mem_singleton.mp h
    exact ⟨rfl, rest, hl⟩
  next => simp at h

theorem Deed.outgoing_ofBuffer {stage : Stage} {buffer : List UInt8} :
    ∀ d ∈ Deed.ofBuffer stage buffer, d.outgoing? = none := by
  intro d hd
  unfold Deed.ofBuffer at hd
  split at hd
  next =>
    rw [List.mem_singleton.mp hd]
    rfl
  next => simp at hd

namespace Runner

variable {p : Profile}

/-- A line that nothing has asked for is told to the owner, and nothing else comes of it. -/
theorem settle_unexpected (today : Date) {s : Session} (watch : Bool) {line : String}
    {rest : List UInt8} (stage : s.stage = .loggedIn)
    (hl : LineBuffer.takeLine? s.transport.buffer = some (line, rest)) :
    ∃ news, settle today s watch s.transport.readOn =
      { session := { s with transport := { s.transport with buffer := rest }, news } } := by
  have hread : s.transport.readOn =
      ({ s.transport with buffer := rest }, .done (some (.line line))) := by
    unfold Transport.readOn
    rw [hl]
    rfl
  let given : Session := { s with transport := { s.transport with buffer := rest } }
  have hgiven : settle today s watch s.transport.readOn =
      { session := given.handleUnexpected line } := by
    rw [hread]
    change ({ session := given.handleLine today line } : Runner) = _
    unfold Session.handleLine
    rw [show given.stage = .loggedIn from stage]
  rw [hgiven]
  unfold Session.handleUnexpected
  dsimp only
  split
  next => exact ⟨_, rfl⟩
  next => exact ⟨_, rfl⟩

theorem step_unexpected {today : Date} {m : Move} {bytes : List UInt8} {line : String}
    (hs : m.before.step? today m.input = some m.after)
    (hd : .heard .loggedIn bytes line ∈ m.deeds) :
    (∀ d ∈ m.deeds, d.outgoing? = none) ∧ m.after.phase = .head ∧
      m.before.session.stage = .loggedIn ∧
      ∃ buffer news, m.after.session = { m.before.session with
        transport := { m.before.session.transport with buffer }, news } := by
  have hlost : ∀ d ∈ m.lost, ∃ c, d = .unsecured c := by
    intro d hm
    rcases m.lost_cases with hl | ⟨c, hl⟩
    · simp [hl] at hm
    · rw [hl] at hm
      exact ⟨c, List.mem_singleton.mp hm⟩
  have hacts : .heard .loggedIn bytes line ∈ m.before.acts m.input := by
    rcases List.mem_append.mp hd with hd | hd
    · exact hd
    · obtain ⟨c, hc⟩ := hlost _ hd
      simp at hc
  have silent : (∀ d ∈ m.before.acts m.input, d.outgoing? = none) →
      ∀ d ∈ m.deeds, d.outgoing? = none := by
    intro ha d hm
    rcases List.mem_append.mp hm with hm | hm
    · exact ha d hm
    · obtain ⟨c, rfl⟩ := hlost d hm
      rfl
  obtain ⟨⟨s, phase⟩, input, after⟩ := m
  dsimp only at hs hacts silent ⊢
  unfold acts at hacts silent
  split at hacts
  next text watch hp =>
    obtain ⟨stream, _, hc⟩ := List.mem_map.mp hacts
    simp at hc
  next watch hp =>
    dsimp only at hp hacts silent
    subst hp
    obtain ⟨stage, rest, hl⟩ := Deed.heard_ofBuffer hacts
    obtain ⟨news, hsettle⟩ := settle_unexpected today watch stage.symm hl
    have hafter := (Option.some.inj hs).symm.trans hsettle
    rw [hafter]
    exact ⟨silent Deed.outgoing_ofBuffer, rfl, stage.symm, rest, news, rfl⟩
  next => simp at hacts
  next => simp at hacts
  next => simp at hacts
  next stream watch chunk hp =>
    dsimp only at hp hacts silent
    subst hp
    have hheard := (List.mem_cons.mp hacts).resolve_left (by simp)
    obtain ⟨stage, rest, hl⟩ := Deed.heard_ofBuffer hheard
    let given : Session := { s with
      transport := { s.transport with buffer := s.transport.buffer ++ chunk.bytes } }
    obtain ⟨news, hsettle⟩ :=
      settle_unexpected today (s := given) watch stage.symm hl
    have hafter := (Option.some.inj hs).symm.trans hsettle
    rw [hafter]
    refine ⟨silent ?_, rfl, stage.symm, rest, news, rfl⟩
    intro d hm
    rcases List.mem_cons.mp hm with rfl | hm
    · rfl
    · exact Deed.outgoing_ofBuffer d hm
  next => simp at hacts

/-- In every run the session and the server take turns on each connection, and a line that nothing
has asked for changes nothing but the store of bytes and the news. -/
theorem turns_in_every_run {hasRoots : Bool} {moves : List Move} {r : Runner}
    (run : Run (start p hasRoots) moves r) :
    Deed.Lockstep p (deeds moves) ∧
      ∀ m ∈ moves, ∀ bytes line, .heard .loggedIn bytes line ∈ m.deeds →
        (∀ d ∈ m.deeds, d.outgoing? = none) ∧ m.after.phase = .head ∧
        m.after.session.transport.queue = [] ∧
        ∃ buffer news, m.after.session = { m.before.session with
          transport := { m.before.session.transport with buffer }, news } := by
  obtain ⟨w, runs, _⟩ := run_matches run
  refine ⟨runs.lockstep, ?_⟩
  intro m hm bytes line hd
  obtain ⟨earlier, today, hrun, hs⟩ := run.of_mem hm
  obtain ⟨silent, head, stage, buffer, news, hsession⟩ := step_unexpected hs hd
  refine ⟨silent, head, ?_, buffer, news, hsession⟩
  obtain ⟨w', runs', tidy, rests⟩ := run_matches (hrun.next hs)
  rw [head] at rests
  -- A session that is logged in has nothing queued at the head of its loop.
  have coupled := Session.coupled_of_rests tidy runs'.sound rests
  refine (coupled.ready ?_).2
  rw [hsession]
  exact stage

theorem turns_through_login :
    ∃ p moves r, Run (start p true) moves r ∧
      Deed.begun (deeds moves) = ["USER user", "PASS secret", "CWD /pub", "PWD"] ∧
      Deed.Lockstep p (deeds moves) := by
  let p : Profile :=
    { host := "localhost", username := "user", password := "secret", authTls := false,
      initialDirectory := some "/pub" }
  let text (line : String) (h : line.toList ≠ [] ∧ '\r' ∉ line.toList ∧ '\n' ∉ line.toList) :
    Argument := ⟨line, h.1, h.2⟩
  let inputs := Input.welcomed 0 "220 Ready\r\n" ++
    Input.exchanged (.user (text "user" (by decide))) "331 Password\r\n" ++
    Input.exchanged (.pass (text "secret" (by decide))) "230 Welcome\r\n" ++ [.proceed] ++
    Input.exchanged (.cwd (text "/pub" (by decide))) "250 Ok\r\n" ++ [.proceed, .proceed]
  have h : (rehearse p inputs).map (fun x => Deed.begun (deeds x.1)) =
      some ["USER user", "PASS secret", "CWD /pub", "PWD"] := by decide +kernel
  obtain ⟨⟨moves, r⟩, hplay, hbegun⟩ := Option.map_eq_some_iff.mp h
  have run := run_of_play hplay
  exact ⟨p, moves, r, run, hbegun, (turns_in_every_run run).1⟩

end Runner

end FtpControl

import FtpControl.Proofs.Run
import FtpControl.Proofs.Usage
import FtpControl.Script.TransportBench

namespace FtpControl

open Transport (follow respond)

namespace Script.TransportBench

theorem await_follows (started fuel : Nat) (b : TransportBench) (wait : Wait) (during : List Happening) :
    ∃ answers, (b.await started fuel wait during).1.transport =
      (follow (b.transport, .blocked wait) answers).1 := by
  induction fuel generalizing b wait during with
  | zero => exact ⟨[], rfl⟩
  | succ fuel ih =>
    unfold await
    dsimp only
    split
    next answer _ =>
      split
      next transport notice hx =>
        refine ⟨[answer], ?_⟩
        simp [follow, respond, hx, settle]
      next transport later hx =>
        obtain ⟨answers, ha⟩ := ih _ later during
        refine ⟨answer :: answers, ha.trans ?_⟩
        simp [follow, respond, hx, settle]
      next => exact ⟨[], rfl⟩
    next =>
      split
      next what during => exact ih _ wait during
      next => exact ⟨[], rfl⟩

theorem execute_follows (b : TransportBench) (op : Operation) (during : List Happening) :
    ∃ answers, (b.execute op during).1.transport = (follow (b.transport.begin op) answers).1 := by
  unfold execute
  split
  next transport notice hb => exact ⟨[], by rw [hb]; rfl⟩
  next transport wait hb =>
    rw [hb]
    exact await_follows _ _ _ wait during

/-- A script makes the calls that anyone can make. -/
theorem runQueue_uses (during : List Happening) (fuel : Nat) (b : TransportBench) :
    ∃ uses, (runQueue during fuel b).1.transport = b.transport.after uses := by
  induction fuel generalizing b with
  | zero => exact ⟨[], rfl⟩
  | succ fuel ih =>
    unfold runQueue
    split
    next => exact ⟨[], rfl⟩
    next op next hnext =>
      obtain ⟨answers, ha⟩ := execute_follows { b with transport := next } op during
      have hused : (b.transport.use (.execute answers)).1 =
          (({ b with transport := next } : TransportBench).execute op during).1.transport := by
        rw [Transport.use_execute hnext, ha]
      split
      next later hx =>
        rw [hx] at hused
        exact ⟨[.execute answers], hused.symm⟩
      next later outcome _ hx =>
        rw [hx] at hused
        obtain ⟨uses, hu⟩ := ih later
        refine ⟨.execute answers :: uses, ?_⟩
        rw [Transport.after, List.foldl_cons, hused]
        exact hu

end Script.TransportBench

namespace Session

open Transport (use granted)

variable {s : Session}

theorem used_withTransport {request : Transport → Except Failure Transport} (used : s.transport.Used)
    (hr : ∀ t, request s.transport = .ok t → t.Used) : (s.withTransport request).transport.Used := by
  unfold withTransport
  split
  next t h => exact hr t h
  next => exact used.after [.disconnect]

theorem used_readNext (used : s.transport.Used) : s.readNext.transport.Used :=
  used_withTransport used fun _ h => used.of_use .readLine (by simp [use, granted, h])

theorem used_send (used : s.transport.Used) (command : Command) : (s.send command).transport.Used := by
  refine used_withTransport (s := s.log _) used fun t h => ?_
  change (s.transport.request (.writeLine command.line) >>= fun t => t.request .readLine) = .ok t at h
  cases hsend : s.transport.request (.writeLine command.line) with
  | error failure =>
    rw [hsend] at h
    cases h
  | ok sent =>
    rw [hsend] at h
    have hread : sent.request .readLine = .ok t := h
    have hsent : sent.Used := used.of_use (.sendLine command.line) (by simp [use, granted, hsend])
    exact hsent.of_use .readLine (by simp [use, granted, hread])

theorem used_sendUser (used : s.transport.Used) : s.sendUser.transport.Used := by
  unfold sendUser
  split
  next command _ => exact used_send used command
  next => exact used.after [.disconnect]

theorem used_sendPassword (used : s.transport.Used) : s.sendPassword.transport.Used := by
  unfold sendPassword
  split
  next command _ => exact used_send used command
  next => exact used.after [.disconnect]

theorem used_accept {line : String} {next : Session → UInt16 → Session} (used : s.transport.Used)
    (good : ∀ code, (next (s.log line) code).transport.Used) : (s.accept line next).transport.Used := by
  unfold accept
  dsimp only
  split
  next => exact used.after [.disconnect]
  next => exact used_readNext (s := s.log line) used
  next => exact used.after [.disconnect]
  next code _ => exact good code

theorem used_afterWelcome (used : s.transport.Used) : s.afterWelcome.transport.Used := by
  unfold afterWelcome
  split
  next => exact used_send used .authTls
  next => exact used_sendUser used

theorem used_afterAuthTls (used : s.transport.Used) : s.afterAuthTls.transport.Used := by
  unfold afterAuthTls
  split
  next t h =>
    have hshaken : t.Used := used.of_use .handshake (by simp [use, granted, h])
    exact hshaken
  next => exact used.after [.disconnect]

theorem used_afterUser (used : s.transport.Used) (code : UInt16) : (s.afterUser code).transport.Used := by
  unfold afterUser
  split
  next => exact used
  next => exact used_sendPassword used

theorem used_afterPwd (used : s.transport.Used) (line : String) : (s.afterPwd line).transport.Used := by
  unfold afterPwd
  split
  next => exact used
  next => exact used.after [.disconnect]

theorem used_afterStat (used : s.transport.Used) (today : Date) : (s.afterStat today).transport.Used := by
  unfold afterStat
  dsimp only
  split
  next => exact used
  next => exact used

theorem used_handleStat (used : s.transport.Used) (today : Date) (line : String) :
    (s.handleStat today line).transport.Used := by
  unfold handleStat
  split
  next =>
    refine used_readNext ?_
    dsimp only
    split
    next => exact used
    next => exact used
  next => exact used_accept used fun _ => used_afterStat (s := s.log line) used today

theorem used_handleUnexpected (used : s.transport.Used) (line : String) :
    (s.handleUnexpected line).transport.Used := by
  unfold handleUnexpected
  dsimp only
  split
  next => exact used
  next => exact used

theorem used_handleLine (used : s.transport.Used) (today : Date) (line : String) :
    (s.handleLine today line).transport.Used := by
  have hlog : (s.log line).transport.Used := used
  unfold handleLine
  split
  next => exact used_accept used fun _ => used_afterWelcome hlog
  next => exact used_accept used fun _ => used_afterAuthTls hlog
  next => exact used_accept used fun _ => used_sendUser hlog
  next => exact used_accept used fun code => used_afterUser hlog code
  next => exact used_accept used fun _ => hlog
  next => exact used_accept used fun _ => used_send hlog .pwd
  next => exact used_accept used fun _ => used_afterPwd hlog line
  next => exact used_handleStat used today line
  next => exact used_handleUnexpected used line
  next => exact used_handleUnexpected used line
  next => exact used_handleUnexpected used line

theorem used_call (used : s.transport.Used) (today : Date) (call : Notice.Call) :
    (s.call today call).transport.Used := by
  cases call with
  | connected => exact used_readNext used
  | handshakeDone => exact used_send (s := s.log _) used .pbszZero
  | line text => exact used_handleLine used today text
  | transportError message fatal =>
    cases fatal with
    | false => exact used
    | true => exact used.after [.disconnect]

theorem used_notice (used : s.transport.Used) (today : Date) (outcome : Notice) :
    (s.notice today outcome).transport.Used := by
  unfold notice
  generalize outcome.calls = calls
  induction calls generalizing s with
  | nil => exact used
  | cons call calls ih => exact ih (used_call used today call)

theorem used_handle (used : s.transport.Used) (request : Request) :
    (s.handle request).transport.Used := by
  have navigates : ∀ {start : Session → Session}, (start s).transport.Used →
      (s.navigate request start).transport.Used := by
    intro start h
    unfold navigate
    split
    next => exact h
    next =>
      split
      next => exact used
      next => exact used
  cases request with
  | connect => exact used.after [.connect s.profile.host s.profile.port s.profile.family]
  | disconnect => exact used.after [.disconnect]
  | changeDirectory path =>
    refine navigates ?_
    unfold beginChangeDirectory
    split
    next command _ => exact used_send used command
    next => exact used
  | listDirectory => exact navigates (used_send (s := { s with listing := #[] }) used .statList)

end Session

namespace Runner

/-- A session makes use of its connection. What it carries out it has taken from the queue. -/
inductive Conducts : Runner → Prop
  | rests {s : Session} {phase : Phase} : s.transport.Used → (∀ op watch, phase ≠ .ready op watch) →
      (∀ wait watch, phase ≠ .waiting wait watch) → Conducts ⟨s, phase⟩
  | ready {s : Session} {t : Transport} {op : Operation} (watch : Bool) : t.Used →
      t.next? = some (op, s.transport) → Conducts ⟨s, .ready op watch⟩
  | waits {s : Session} {t next : Transport} {op : Operation} {answers : List Answer} {wait : Wait}
      (watch : Bool) : t.Used → t.next? = some (op, next) →
      follow (next.begin op) answers = (s.transport, .blocked wait) →
      Conducts ⟨s, .waiting wait watch⟩

variable {r r' : Runner} {today : Date} {input : Input}

theorem Conducts.used (h : r.Conducts) : r.session.transport.Used := by
  cases h with
  | rests used _ _ => exact used
  | ready _ used hnext => exact used.skip hnext
  | @waits s t op next answers wait watch used hnext hx =>
    have hlater := used.execute hnext answers
    rwa [hx] at hlater

theorem conducts_head {s : Session} (used : s.transport.Used) : Conducts { session := s } :=
  .rests used nofun nofun

theorem conducts_idle {s : Session} (used : s.transport.Used) :
    Conducts { session := s, phase := .idle } :=
  .rests used nofun nofun

theorem conducts_atHead {s : Session} (used : s.transport.Used) : (atHead s).Conducts := by
  unfold atHead
  split
  next op t hnext => exact .ready false used hnext
  next hnext =>
    split
    next =>
      split
      next request deferred _ =>
        exact conducts_head (Session.used_handle (s := { s with deferred }) used request)
      next =>
        split
        next hopen =>
          -- A session that keeps watch reads as if it had asked for a line.
          have hq : s.transport.queue = [] := by
            cases hq : s.transport.queue with
            | nil => rfl
            | cons op queue => simp [Transport.next?, hq] at hnext
          have hasked : (s.transport.push .readLine).Used :=
            used.of_use .readLine (by simp [Transport.use, Transport.granted, Transport.request, hopen])
          exact .ready true hasked (Transport.next?_push hq .readLine)
        next => exact conducts_idle used
    next => exact conducts_idle used

theorem conducts_settle {s : Session} {t next : Transport} {op : Operation}
    {x : Transport × Progress} (watch : Bool) (used : t.Used) (hnext : t.next? = some (op, next))
    (answers : List Answer) (hx : follow (next.begin op) answers = x) : (settle today s watch x).Conducts := by
  have hlater := used.execute hnext answers
  rw [hx] at hlater
  obtain ⟨later, progress⟩ := x
  have rested : ({ s with transport := later } : Session).transport.Used := hlater
  cases progress with
  | blocked wait => exact .waits watch used hnext hx
  | done outcome =>
    cases outcome with
    | none => exact conducts_head rested
    | some outcome => exact conducts_head (Session.used_notice rested today outcome)

theorem conducts_interrupt (h : r.Conducts) (watch : Bool) (request : Request) :
    (r.interrupt watch request).Conducts := by
  unfold interrupt
  split
  next => exact conducts_head (Session.used_handle h.used request)
  next =>
    cases h with
    | rests used hready hwaiting => exact .rests used hready hwaiting
    | ready watch used hnext => exact .ready watch used hnext
    | waits watch used hnext hx => exact .waits watch used hnext hx

/-- Whatever a session does next, it makes use of its connection. -/
theorem conducts_step (h : r.Conducts) (hs : r.step? today input = some r') : r'.Conducts := by
  have used := h.used
  have finishes : (finish r.session).Conducts := .rests (used.after [.disconnect]) nofun nofun
  obtain ⟨s, phase⟩ := r
  cases phase with
  | head =>
    cases input with
    | proceed =>
      cases hs
      exact conducts_atHead used
    | _ => simp [step?] at hs
  | idle =>
    cases input with
    | request request =>
      cases hs
      exact conducts_head (Session.used_handle used request)
    | close =>
      cases hs
      exact finishes
    | _ => simp [step?] at hs
  | ready op watch =>
    cases input with
    | proceed =>
      cases hs
      cases h with
      | rests _ hready _ => exact absurd rfl (hready op watch)
      | ready _ used hnext => exact conducts_settle watch used hnext [] rfl
    | request request =>
      cases hs
      exact conducts_interrupt h watch request
    | close =>
      cases hs
      exact finishes
    | answer answer => simp [step?] at hs
  | waiting wait watch =>
    cases input with
    | answer answer =>
      obtain ⟨x, hx, rfl⟩ := Option.map_eq_some_iff.mp hs
      cases h with
      | rests _ _ hwaiting => exact absurd rfl (hwaiting wait watch)
      | @waits _ t next op answers _ _ used hnext hfollow =>
        refine conducts_settle watch used hnext (answers ++ [answer]) ?_
        rw [Transport.follow_concat, hfollow]
        simp [respond, hx]
    | request request =>
      cases hs
      exact conducts_interrupt h watch request
    | close =>
      cases hs
      exact finishes
    | proceed => simp [step?] at hs
  | «over» => cases input <;> simp [step?] at hs

theorem exists_run_open : ∃ (p : Profile) (moves : List Move) (r : Runner),
    Run (Runner.start p true) moves r ∧ r.session.transport.isOpen = true := by
  let p : Profile :=
    { host := "localhost", username := "user", password := "secret", authTls := false }
  have h : (rehearse p (Input.welcomed 0 "220 Ready\r\n")).map (fun x =>
      x.2.session.transport.isOpen) = some true := by decide +kernel
  obtain ⟨⟨moves, r⟩, hplay, hopen⟩ := Option.map_eq_some_iff.mp h
  exact ⟨p, moves, r, run_of_play hplay, hopen⟩

theorem Run.conducts {p : Profile} {hasRoots : Bool} {moves : List Move}
    (run : Runner.Run (Runner.start p hasRoots) moves r) : r.Conducts := by
  induction run with
  | start => exact conducts_head ⟨_, [], rfl⟩
  | next _ hs ih => exact conducts_step ih hs

end Runner

namespace Transport

/-- However a connection is used, whatever the network does, and wherever an operation is given up: the
flag is right about an open stream; whoever is to dial has an address to dial; a request that is refused
changes nothing; a failure that ends the connection leaves nothing of it; and a connect starts afresh.
What a script does to a connection is such a use, and so is all that a session does. -/
theorem consistent_in_any_use :
    (∀ t : Transport, t.Used →
      (∀ stream, t.stream = some stream → t.encrypted = stream.secure) ∧
      (.connect ∈ t.queue → t.candidates ≠ []) ∧
      (∀ u failure, (t.use u).2 = .refused failure →
        (t.use u).1 = t ∧ failure.kind = .invalidState ∧
          (t.isOpen = false ∨ u = .handshake ∧ t.encrypted = true)) ∧
      (∀ u op message fatal, (t.use u).2 = .executed op (.done (some (.error message fatal))) →
        fatal = true ∧ (t.use u).1.Emptied) ∧
      (∀ u op message, (t.use u).2 = .executed op (.done (some (.endpointFailed message true))) →
        (t.use u).1.Emptied) ∧
      (∀ host port family, (t.use (.connect host port family)).1.isOpen = false ∧
        (t.use (.connect host port family)).1.encrypted = false ∧
        (t.use (.connect host port family)).1.buffer = [] ∧
        (t.use (.connect host port family)).1.queue = [.resolve]) ∧
      ∀ u, (t.use u).1.Used) ∧
    (∀ (b : Script.TransportBench) (during : List Script.Happening), b.transport.Used →
      (b.run during).1.transport.Used) ∧
    ∀ {p : Profile} {hasRoots : Bool} {moves : List Runner.Move} {r : Runner},
      Runner.Run (Runner.start p hasRoots) moves r → r.session.transport.Used := by
  refine ⟨fun t used => ?_, fun b during used => ?_, fun run => run.conducts.used⟩
  · have h := used.stands
    refine ⟨h.flagged, h.candidates_ne_nil, fun u failure hu => use_refused hu, ?_, ?_,
      fun host port family => ⟨rfl, rfl, rfl, rfl⟩, fun u => used.after [u]⟩
    · intro u op message fatal hu
      exact (h.executed hu).failed message fatal rfl
    · intro u op message hu
      exact (h.executed hu).exhausted message rfl
  · obtain ⟨uses, hb⟩ := Script.TransportBench.runQueue_uses during b.queueBound b
    rw [Script.TransportBench.run, hb]
    exact used.after uses

theorem consistent_after_upgrade :
    ∃ (searching secured : Transport) (b : Script.TransportBench) (p : Profile)
      (moves : List Runner.Move) (r : Runner),
      searching.Used ∧ .connect ∈ searching.queue ∧ searching.candidates ≠ [] ∧
      (searching.use (.execute [.refused "Connection refused"])).1.Emptied ∧
      secured.Used ∧ secured.stream = some ⟨0, true⟩ ∧ secured.encrypted = true ∧
      (secured.use .handshake).2 = .refused alreadyEncrypted ∧ (secured.use .handshake).1 = secured ∧
      (secured.use (.execute [.took 3, .expired])).2 =
        .executed (.writeLine "PBSZ 0") (.done (some (.error "Control stream timed out." true))) ∧
      (secured.use (.execute [.took 3, .expired])).1.Emptied ∧
      b.transport = searching ∧ (b.run []).1.transport.isOpen = true ∧ (b.run []).1.transport.Used ∧
      Runner.Run (Runner.start p true) moves r ∧ r.session.transport.isOpen = true ∧
      r.session.transport.Used := by
  let endpoint : Endpoint := ⟨.v4 ⟨#[10, 0, 0, 1], rfl⟩, 21⟩
  let first : Transport := { trust := { acceptInvalidCerts := true } }
  let search : List Use := [.connect "localhost" 21 .ipv4, .execute [.found [endpoint]]]
  -- The line is requested while the stream is still in plain.
  let upgrade : List Use := [.execute [.accepted 0], .handshake, .sendLine "PBSZ 0", .execute [.secured]]
  let searching := first.after search
  let secured := searching.after upgrade
  let b : Script.TransportBench := { transport := searching, net := { scene := {} } }
  obtain ⟨p, moves, r, hrun, hstands⟩ := Runner.exists_run_open
  obtain ⟨consistent, scripted, run⟩ := consistent_in_any_use
  have hsearching : searching.Used := ⟨_, search, rfl⟩
  have hq : .connect ∈ searching.queue := by decide
  have hlast : (searching.use (.execute [.refused "Connection refused"])).2 =
      .executed .connect (.done (some (.endpointFailed "10.0.0.1:21: Connection refused" true))) := by
    decide +kernel
  obtain ⟨_, hcandidates, _, _, exhausted, _⟩ := consistent _ hsearching
  have hsecured : secured.Used := hsearching.after upgrade
  have hs : secured.stream = some ⟨0, true⟩ := by decide +kernel
  have hr : (secured.use .handshake).2 = .refused alreadyEncrypted := by decide +kernel
  have hx : (secured.use (.execute [.took 3, .expired])).2 =
      .executed (.writeLine "PBSZ 0") (.done (some (.error "Control stream timed out." true))) := by
    decide +kernel
  obtain ⟨flagged, _, refused, failed, _⟩ := consistent _ hsecured
  have hopen : (b.run []).1.transport.isOpen = true := by decide +kernel
  exact ⟨searching, secured, b, p, moves, r, hsearching, hq, hcandidates hq, exhausted _ _ _ hlast,
    hsecured, hs, flagged _ hs, hr, (refused _ _ hr).1, hx, (failed _ _ _ _ hx).2, rfl, hopen,
    scripted b [] hsearching, hrun, hstands, run hrun⟩

end Transport

end FtpControl

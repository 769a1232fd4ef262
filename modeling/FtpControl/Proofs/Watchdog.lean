import FtpControl.Proofs.Timeline

namespace FtpControl

def Operation.watched : Operation → Bool
  | .resolve | .connect | .writeLine _ => true
  | .handshake | .readLine => false

theorem Operation.Awaits.guarded {op : Operation} {wait : Wait} (h : op.Awaits wait) :
    wait.guarded = op.watched := by
  cases h <;> rfl

theorem Wait.exists_operation (wait : Wait) : ∃ op : Operation, op.Awaits wait := by
  cases wait with
  | lookup host port => exact ⟨_, .resolve host port⟩
  | dial endpoint => exact ⟨_, .connect endpoint⟩
  | negotiate connection name => exact ⟨_, .handshake connection name⟩
  | transmit stream rest => exact ⟨_, .writeLine "" stream rest⟩
  | receive stream => exact ⟨_, .readLine stream⟩

theorem Transport.resume_expired {t : Transport} {wait : Wait} (h : wait.guarded = true) :
    t.resume wait .expired = some t.timedOut := by
  cases wait with
  | negotiate | receive => cases h
  | lookup | dial | transmit => rfl

theorem Runner.Ended.news {r r' : Runner} {today : Date} {input : Runner.Input} (ended : r.Ended)
    (hs : r.step? today input = some r') (hc : input ≠ .request .connect) :
    ∃ count, r'.session.news = r.session.news ++ List.replicate count (.error "Not logged in.") := by
  obtain ⟨s, phase⟩ := r
  obtain ⟨blank, resting⟩ := ended
  dsimp only at blank resting
  have refused : ∀ request : Request, request ≠ .connect →
      ∃ count, (s.handle request).news = s.news ++ List.replicate count (.error "Not logged in.") := by
    intro request hrequest
    cases request with
    | connect => exact absurd rfl hrequest
    | disconnect => exact ⟨0, (List.append_nil _).symm⟩
    | changeDirectory path | listDirectory =>
      refine ⟨1, ?_⟩
      simp [Session.handle, Session.navigate, blank.stage, blank.connecting, Stage.isAwaiting, Session.emit]
  rcases resting with rfl | rfl | rfl
  · cases input with
    | proceed =>
      obtain rfl := Option.some.inj hs
      refine ⟨0, ?_⟩
      simp [atHead, Transport.next?, blank.queue, blank.stage]
    | _ => cases hs
  · cases input with
    | request request =>
      obtain rfl := Option.some.inj hs
      exact refused request fun h => hc (congrArg _ h)
    | close =>
      obtain rfl := Option.some.inj hs
      exact ⟨0, (List.append_nil _).symm⟩
    | _ => cases hs
  · cases hs

namespace Script

/-- The period of a watchdog that was set at this time is over. The longest period never is. -/
def PeriodOver (timeout : UInt64) (set now : Nat) : Prop :=
  timeout.toNat + 1 < 2 ^ 64 ∧ timeout.toNat * 1000 ≤ now - set

theorem watchdogExpired_iff {timeout : UInt64} {set now : Nat} :
    watchdogExpired timeout set now = true ↔ PeriodOver timeout set now := by
  simp [watchdogExpired, PeriodOver]

theorem periodOver_iff {timeout : UInt64} {set now : Nat} (h : now < (2 ^ 64 - 1) * 1000) :
    PeriodOver timeout set now ↔ timeout.toNat * 1000 ≤ now - set := by
  have hlt := timeout.toNat_lt
  unfold PeriodOver
  omega

namespace Peer

variable {p : Peer} {answer : Answer}

theorem negotiate_answer {name : ServerName} {anyName : Bool}
    (h : (p.negotiate name anyName).2 = some answer) :
    answer = .secured ∨ ∃ message, answer = .handshakeFailed message := by
  have shaken : ∀ q : Peer, (q.shake name anyName).2 = some answer →
      answer = .secured ∨ ∃ message, answer = .handshakeFailed message := by
    intro q hq
    unfold shake at hq
    repeat' split at hq
    all_goals first
      | exact Or.inl (Option.some.inj hq).symm
      | exact Or.inr ⟨_, (Option.some.inj hq).symm⟩
      | cases hq
  unfold negotiate at h
  split at h
  next => exact shaken p h
  next =>
    split at h
    next => exact Or.inr ⟨_, (Option.some.inj h).symm⟩
    next =>
      split at h
      next => exact shaken _ h
      next => cases h

theorem write_answer {secure : Bool} {bytes : List UInt8}
    (h : (p.write secure bytes).2.2 = some answer) :
    (∃ count, answer = .took count) ∨ ∃ message, answer = .writeFailed message := by
  unfold write at h
  split at h
  next => exact Or.inr ⟨_, (Option.some.inj h).symm⟩
  next =>
    dsimp only at h
    generalize (if secure = true then recordCost * (bytes.length / recordSize + 1) else 0) = cost at h
    split at h
    next => exact Or.inl ⟨_, (Option.some.inj h).symm⟩
    next =>
      split at h
      next => cases h
      next => exact Or.inl ⟨_, (Option.some.inj h).symm⟩

theorem read_answer {secure : Bool} (h : (p.read secure).2 = some answer) :
    (∃ chunk, answer = .received chunk) ∨ answer = .ended ∨ ∃ message, answer = .readFailed message := by
  unfold read at h
  split at h
  next => exact Or.inl ⟨_, (Option.some.inj h).symm⟩
  next =>
    split at h
    next => exact Or.inr (Or.inr ⟨_, (Option.some.inj h).symm⟩)
    next =>
      split at h
      next => exact Or.inr (Or.inr ⟨_, (Option.some.inj h).symm⟩)
      next => exact Or.inr (Or.inl (Option.some.inj h).symm)
    next => exact Or.inr (Or.inl (Option.some.inj h).symm)
    next => cases h

end Peer

namespace Network

variable {net : Network} {trust : Trust} {wait : Wait} {answer : Answer}

theorem exists_act {connection : Nat} {f : Peer → Peer × Option Answer}
    (h : (net.act connection f).2 = some answer) : ∃ p, (f p).2 = some answer := by
  unfold act at h
  split at h
  next => cases h
  next p _ => exact ⟨p, h⟩

theorem resume_answer? (h : (net.answer? trust wait).2 = some answer) (t : Transport) :
    answer ≠ .expired ∧ ∃ x, t.resume wait answer = some x := by
  have given : ∀ {given x}, some given = some answer → given ≠ .expired → t.resume wait given = some x →
      answer ≠ .expired ∧ ∃ x, t.resume wait answer = some x := by
    intro given x hgiven hne hx
    obtain rfl := Option.some.inj hgiven
    exact ⟨hne, x, hx⟩
  cases wait with
  | lookup host port =>
    simp only [answer?] at h
    split at h
    next => exact given h (by simp) rfl
    next => exact given h (by simp) rfl
    next => cases h
  | dial endpoint =>
    simp only [answer?] at h
    split at h
    next => exact given h (by simp) rfl
    next => exact given h (by simp) rfl
    next => exact given h (by simp) rfl
    next => cases h
  | negotiate connection name =>
    obtain ⟨p, hp⟩ := exists_act h
    rcases Peer.negotiate_answer hp with rfl | ⟨message, rfl⟩ <;> exact ⟨by simp, _, rfl⟩
  | transmit stream rest =>
    simp only [answer?] at h
    split at h
    next => cases h
    next p _ =>
      rcases Peer.write_answer h with ⟨count, rfl⟩ | ⟨message, rfl⟩
      · refine ⟨by simp, ?_⟩
        simp only [Transport.resume]
        split <;> exact ⟨_, rfl⟩
      · exact ⟨by simp, _, rfl⟩
  | receive stream =>
    obtain ⟨p, hp⟩ := exists_act h
    rcases Peer.read_answer hp with ⟨chunk, rfl⟩ | rfl | ⟨message, rfl⟩ <;> exact ⟨by simp, _, rfl⟩

theorem answer?_dialed (net : Network) (trust : Trust) (wait : Wait) :
    (net.answer? trust wait).1.seen.dialed = net.seen.dialed := by
  have acted : ∀ connection f, (net.act connection f).1.seen.dialed = net.seen.dialed := by
    intro connection f
    unfold act
    split <;> rfl
  cases wait with
  | lookup host port =>
    simp only [answer?]
    split <;> rfl
  | dial endpoint =>
    simp only [answer?]
    split <;> rfl
  | negotiate connection name => exact acted connection _
  | transmit stream rest =>
    simp only [answer?]
    split <;> rfl
  | receive stream => exact acted _ _

end Network

namespace SessionBench

variable {b : SessionBench} {wait : Wait} {watch : Bool}

theorem step_answer (hphase : b.runner.phase = .waiting wait watch) (today : Date) {answer : Answer}
    {x : Transport × Progress} (hx : b.runner.session.transport.resume wait answer = some x) :
    b.runner.step? today (.answer answer) = some (.settle today b.runner.session watch x) := by
  simp [Runner.step?, hphase, hx]

def heard (b : SessionBench) (wait : Wait) : SessionBench × Option Answer :=
  let (net, answer) := b.net.answer? b.runner.session.transport.trust wait
  ({ b with net }, answer <|> if isLate { b with net } wait then some .expired else none)

def takes (today : Date) (b : SessionBench) : Option Answer → SessionBench
  | some answer => (b.advance today (.answer answer)).getD b
  | none => b

theorem turn_waiting (hphase : b.runner.phase = .waiting wait watch) (today : Date) :
    b.turn (.move today) = (b.heard wait).1.takes today (b.heard wait).2 := by
  simp only [turn, move, hphase]
  split
  next answer hanswer =>
    rw [show (b.heard wait).2 = some answer from hanswer, takes]
    split
    next b' hadvance =>
      rw [show (b.heard wait).1.advance today (.answer answer) = some b' from hadvance]
      rfl
    next hadvance =>
      rw [show (b.heard wait).1.advance today (.answer answer) = none from hadvance]
      rfl
  next hanswer =>
    rw [show (b.heard wait).2 = none from hanswer]
    rfl

theorem isLate_heard (b : SessionBench) (wait : Wait) : (b.heard wait).1.isLate wait = b.isLate wait := by
  simp only [heard, isLate, Network.answer?_clock]

theorem heard_of_some {answer : Answer}
    (h : (b.net.answer? b.runner.session.transport.trust wait).2 = some answer) :
    (b.heard wait).2 = some answer := by
  simp only [heard, h]
  rfl

theorem heard_of_none (h : (b.net.answer? b.runner.session.transport.trust wait).2 = none) :
    (b.heard wait).2 = if b.isLate wait then some .expired else none := by
  rw [← isLate_heard]
  simp only [heard, h]
  rfl

theorem isLate_iff : b.isLate wait = true ↔
    wait.guarded = true ∧ PeriodOver b.runner.session.profile.timeout b.started b.net.clock := by
  rw [isLate, Bool.and_eq_true, watchdogExpired_iff]

theorem turn_heard (hphase : b.runner.phase = .waiting wait watch) (today : Date) {answer : Answer}
    {x : Transport × Progress} (h : (b.heard wait).2 = some answer)
    (hx : b.runner.session.transport.resume wait answer = some x) :
    (b.heard wait).1.advance today (.answer answer) = some (b.turn (.move today)) := by
  have hs : (b.heard wait).1.runner.step? today (.answer answer) = _ := step_answer hphase today hx
  simp only [turn_waiting hphase, takes, h, advance, hs, Option.map_some, Option.getD_some]

/-- The watchdog has ended the connection: that is told, once, and until the next connect no address is
dialled and nothing is told but that navigation is refused. -/
structure TimedOut (b b' : SessionBench) : Prop where
  told : b'.runner.session.news = b.runner.session.news ++
    [.log "Connection error: Control stream timed out.", .fatal "Control stream timed out."]
  stage : b'.runner.session.stage = .notConnected
  closed : b'.runner.session.transport = b.runner.session.transport.disconnect
  dropped : ∀ peer ∈ b'.net.peers, peer.dropped = true
  silent : ∀ later : List Turn, (∀ t ∈ later, ∀ today, t ≠ .request today .connect) →
    (b'.play later).net.seen.dialed = b.net.seen.dialed ∧
      ∃ count, (b'.play later).runner.session.news = b'.runner.session.news ++
        List.replicate count (.error "Not logged in.")

theorem dropped_of_retain (net : Network) : ∀ peer ∈ (net.retain []).peers, peer.dropped = true := by
  intro peer hpeer
  obtain ⟨i, hi, rfl⟩ := List.mem_mapIdx.mp hpeer
  cases hdropped : net.peers[i].dropped <;> simp [hdropped]

def Refuses (b b' : SessionBench) : Prop :=
  b'.net.seen.dialed = b.net.seen.dialed ∧ ∃ count,
    b'.runner.session.news = b.runner.session.news ++ List.replicate count (.error "Not logged in.")

theorem Refuses.trans {b₁ b₂ b₃ : SessionBench} (h : b₁.Refuses b₂) (h' : b₂.Refuses b₃) : b₁.Refuses b₃ := by
  obtain ⟨hdialed, count, hnews⟩ := h
  obtain ⟨hdialed', count', hnews'⟩ := h'
  exact ⟨hdialed'.trans hdialed, count + count', by rw [hnews', hnews, List.append_assoc, List.replicate_append_replicate]⟩

theorem ended_turn {b : SessionBench} (ended : b.runner.Ended) {t : Turn}
    (ht : ∀ today, t ≠ .request today .connect) : (b.turn t).runner.Ended ∧ b.Refuses (b.turn t) := by
  have advanced : ∀ {today input}, input ≠ .request .connect →
      ((b.advance today input).getD b).runner.Ended ∧ b.Refuses ((b.advance today input).getD b) := by
    intro today input hinput
    cases hadvance : b.advance today input with
    | none => exact ⟨ended, rfl, 0, (List.append_nil _).symm⟩
    | some b' =>
      obtain ⟨r', hs, rfl⟩ := Option.map_eq_some_iff.mp hadvance
      exact ⟨(ended.step hs hinput).1, rfl, ended.news hs hinput⟩
  cases t with
  | happen what =>
    refine ⟨ended, ?_, 0, (List.append_nil _).symm⟩
    cases what <;> rfl
  | request today request =>
    refine advanced fun h => ht today ?_
    cases h
    rfl
  | close today => exact advanced (by simp)
  | move today =>
    rw [turn, move]
    rcases ended.resting with hphase | hphase | hphase
    · rw [hphase]
      exact advanced (by simp)
    · rw [hphase]
      exact ⟨ended, rfl, 0, (List.append_nil _).symm⟩
    · rw [hphase]
      exact ⟨ended, rfl, 0, (List.append_nil _).symm⟩

theorem ended_play {b : SessionBench} (ended : b.runner.Ended) {turns : List Turn}
    (h : ∀ t ∈ turns, ∀ today, t ≠ .request today .connect) : b.Refuses (b.play turns) := by
  induction turns generalizing b with
  | nil => exact ⟨rfl, 0, (List.append_nil _).symm⟩
  | cons t turns ih =>
    obtain ⟨ended', refuses⟩ := ended_turn ended (h t List.mem_cons_self)
    exact refuses.trans (ih ended' fun t ht => h t (List.mem_cons_of_mem _ ht))

theorem timedOut_of_over (hphase : b.runner.phase = .waiting wait watch) (today : Date)
    (h : (b.net.answer? b.runner.session.transport.trust wait).2 = none) (hguarded : wait.guarded = true)
    (hover : PeriodOver b.runner.session.profile.timeout b.started b.net.clock) :
    b.TimedOut (b.turn (.move today)) := by
  have hexpired : (b.heard wait).2 = some .expired := by
    rw [heard_of_none h, if_pos (isLate_iff.mpr ⟨hguarded, hover⟩)]
  have hx := Transport.resume_expired (t := b.runner.session.transport) hguarded
  obtain ⟨r, hs, hturn⟩ := Option.map_eq_some_iff.mp (turn_heard hphase today hexpired hx)
  obtain rfl := Option.some.inj (hs.symm.trans (step_answer hphase today hx))
  have ended : (b.turn (.move today)).runner.Ended := by
    rw [← hturn]
    exact ⟨Session.fail_blank _ _, Or.inl rfl⟩
  have hdialed : (b.turn (.move today)).net.seen.dialed = b.net.seen.dialed := by
    rw [← hturn]
    exact b.net.answer?_dialed _ wait
  have silent : ∀ later : List Turn, (∀ t ∈ later, ∀ today, t ≠ .request today .connect) →
      ((b.turn (.move today)).play later).net.seen.dialed = b.net.seen.dialed ∧
        ∃ count, ((b.turn (.move today)).play later).runner.session.news =
          (b.turn (.move today)).runner.session.news ++
            List.replicate count (.error "Not logged in.") := by
    intro later hlater
    obtain ⟨hlast, hnews⟩ := ended_play ended hlater
    exact ⟨hlast.trans hdialed, hnews⟩
  refine ⟨?_, ?_, ?_, ?_, silent⟩
  all_goals rw [← hturn]
  · simp [Runner.settle, Transport.timedOut, Transport.fatal, Session.notice, Notice.calls, Session.call,
      Session.log, Session.emit, Session.fail, Session.reset]
  · rfl
  · rfl
  · exact dropped_of_retain _

/-- The network gives its answer: it is taken, whatever the time. Without one the operation goes on
while its period lasts, and the watchdog ends it when that is over. -/
structure Watched (b : SessionBench) (wait : Wait) (timeout : UInt64) (set : Nat) : Prop where
  answered : ∀ today answer, (b.net.answer? b.runner.session.transport.trust wait).2 = some answer →
    answer ≠ .expired ∧ b.runner.step? today (.answer answer) = some (b.turn (.move today)).runner
  pending : ∀ today, (b.net.answer? b.runner.session.transport.trust wait).2 = none →
    ¬PeriodOver timeout set b.net.clock → (b.turn (.move today)).runner = b.runner
  ended : ∀ today, (b.net.answer? b.runner.session.transport.trust wait).2 = none →
    PeriodOver timeout set b.net.clock → b.TimedOut (b.turn (.move today))

theorem watched_of_guarded (hphase : b.runner.phase = .waiting wait watch) (hguarded : wait.guarded = true) :
    b.Watched wait b.runner.session.profile.timeout b.started where
  answered today answer h := by
    obtain ⟨hanswer, x, hx⟩ := Network.resume_answer? h b.runner.session.transport
    exact ⟨hanswer, (advance_eq_some (turn_heard hphase today (heard_of_some h) hx)).1⟩
  pending today h hover := by
    have hlate : ¬b.isLate wait = true := fun hlate => hover (isLate_iff.mp hlate).2
    rw [turn_waiting hphase, heard_of_none h, if_neg hlate]
    rfl
  ended today h hover := timedOut_of_over hphase today h hguarded hover

/-- The session and its network as they are, but so much later; its watch is set to this time. -/
def later (b : SessionBench) (ms started : Nat) : SessionBench :=
  { b with net := b.net.timed (b.net.clock + ms), started }

/-- A watch that is set has been moved as far as the clock. -/
def Moved (b : SessionBench) (ms started : Nat) : Prop :=
  ∀ wait watch, b.runner.phase = .waiting wait watch → wait.guarded = true → started = b.started + ms

theorem advance_later (b : SessionBench) (ms started : Nat) (today : Date) (input : Runner.Input) :
    (b.later ms started).advance today input = (b.advance today input).map (·.later ms started) := by
  simp only [advance, later, Option.map_map]
  rfl

theorem beginOperation_later (b : SessionBench) (ms started : Nat) (today : Date) :
    (b.later ms started).beginOperation today =
      (b.beginOperation today).map fun b => b.later ms (b.started + ms) := by
  rw [beginOperation, advance_later, beginOperation, Option.map_map, Option.map_map]
  refine congrArg (fun f => Option.map f (b.advance today .proceed)) (funext fun b' => ?_)
  cases hwait : wait? b'.runner with
  | none => simp [later, hwait, Network.timed]
  | some wait => simp [later, hwait, Network.note_timed, Network.note_clock]

theorem Moved.advance {b b' : SessionBench} {ms started : Nat} (moved : b.Moved ms started) {today : Date}
    {input : Runner.Input} (hinput : ∀ op watch, b.runner.phase = .ready op watch → input ≠ .proceed)
    (h : b.advance today input = some b') : b'.Moved ms started := by
  obtain ⟨hs, hstarted, -⟩ := advance_eq_some h
  intro wait watch hphase hguarded
  rcases Runner.step_waiting hs hphase with ⟨op, hready, rfl, -⟩ | ⟨earlier, hearlier, hawaits⟩
  · exact absurd rfl (hinput op watch hready)
  · obtain ⟨op, awaits⟩ := earlier.exists_operation
    rw [hstarted]
    exact moved earlier watch hearlier
      (awaits.guarded.trans ((hawaits op awaits).guarded.symm.trans hguarded))

/-- What is heard is no matter of the time. -/
theorem Moved.heard {b : SessionBench} {ms started : Nat} (moved : b.Moved ms started)
    (hphase : b.runner.phase = .waiting wait watch) :
    (b.later ms started).heard wait = ((b.heard wait).1.later ms started, (b.heard wait).2) := by
  have hanswer := b.net.answer?_timed (b.net.clock + ms) b.runner.session.transport.trust wait
  have hclock := b.net.answer?_clock b.runner.session.transport.trust wait
  have hlate : (b.later ms started).isLate wait = b.isLate wait := by
    rw [Bool.eq_iff_iff, isLate_iff, isLate_iff, and_congr_right_iff]
    intro hguarded
    rw [PeriodOver, PeriodOver, show (b.later ms started).started = b.started + ms from moved wait watch hphase hguarded,
      show (b.later ms started).net.clock = b.net.clock + ms from rfl, Nat.add_sub_add_right]
    rfl
  have hsame : ((b.later ms started).net.answer? (b.later ms started).runner.session.transport.trust wait).2 =
      (b.net.answer? b.runner.session.transport.trust wait).2 := (congrArg Prod.snd hanswer :)
  refine Prod.ext ?_ ?_
  · change ({ b.later ms started with
      net := ((b.net.timed (b.net.clock + ms)).answer? b.runner.session.transport.trust wait).1 } :
        SessionBench) = _
    rw [hanswer]
    simp only [SessionBench.heard, later, hclock]
  · cases h : (b.net.answer? b.runner.session.transport.trust wait).2 with
    | some answer =>
      rw [heard_of_some (hsame.trans h)]
      exact (heard_of_some h).symm
    | none =>
      rw [heard_of_none (hsame.trans h), hlate]
      exact (heard_of_none h).symm

/-- Whatever comes next makes no difference between the two. -/
theorem turn_later {b : SessionBench} {ms started : Nat} (moved : b.Moved ms started) (t : Turn) :
    ∃ started', (b.later ms started).turn t = (b.turn t).later ms started' ∧
      (b.turn t).Moved ms started' := by
  have taken : ∀ {b : SessionBench} {today input}, b.Moved ms started →
      (∀ op watch, b.runner.phase = .ready op watch → input ≠ .proceed) →
      ((b.later ms started).advance today input).getD (b.later ms started) =
        ((b.advance today input).getD b).later ms started ∧
          ((b.advance today input).getD b).Moved ms started := by
    intro b today input moved hinput
    rw [advance_later]
    cases hadvance : b.advance today input with
    | none => exact ⟨rfl, moved⟩
    | some b' => exact ⟨rfl, moved.advance hinput hadvance⟩
  cases t with
  | happen what =>
    refine ⟨started, ?_, moved⟩
    cases what with
    | advance more =>
      have hclock : b.net.clock + ms + more = b.net.clock + more + ms := by omega
      simp only [turn, later, Network.happen, Network.timed, hclock]
    | _ => rfl
  | request today request => exact ⟨started, taken moved fun _ _ _ => by simp⟩
  | close today => exact ⟨started, taken moved fun _ _ _ => by simp⟩
  | move today =>
    cases hphase : b.runner.phase with
    | head =>
      have taken := @taken b today .proceed moved fun op watch h => by simp [hphase] at h
      simp only [turn, move, show (b.later ms started).runner = b.runner from rfl, hphase]
      exact ⟨started, taken⟩
    | ready op watch =>
      -- The watch is set anew.
      simp only [turn, move, show (b.later ms started).runner = b.runner from rfl, hphase,
        beginOperation_later]
      cases hbegin : b.beginOperation today with
      | none => exact ⟨started, rfl, moved⟩
      | some b' => exact ⟨b'.started + ms, rfl, fun _ _ _ _ => rfl⟩
    | waiting wait watch =>
      have hmoved : (b.heard wait).1.Moved ms started := moved
      rw [turn_waiting hphase, turn_waiting (b := b.later ms started) hphase, moved.heard hphase]
      cases (b.heard wait).2 with
      | none => exact ⟨started, rfl, hmoved⟩
      | some answer => exact ⟨started, taken hmoved fun _ _ _ => by simp⟩
    | idle | «over» =>
      simp only [turn, move, show (b.later ms started).runner = b.runner from rfl, hphase]
      exact ⟨started, rfl, moved⟩

theorem play_later {b : SessionBench} {ms started : Nat} (moved : b.Moved ms started) (turns : List Turn) :
    ∃ started', (b.later ms started).play turns = (b.play turns).later ms started' := by
  induction turns generalizing b started with
  | nil => exact ⟨started, rfl⟩
  | cons t turns ih =>
    obtain ⟨started', hturn, moved'⟩ := turn_later moved t
    obtain ⟨last, hlast⟩ := ih moved'
    exact ⟨last, (congrArg (·.play turns) hturn).trans hlast⟩

/-- Whether the clock has moved makes no difference, now and later, to anything but the clock. -/
def Untimed (b : SessionBench) : Prop :=
  ∀ ms later, (b.play (.happen (.advance ms) :: later)).runner = (b.play later).runner ∧
    ∃ clock, (b.play (.happen (.advance ms) :: later)).net = (b.play later).net.timed clock

theorem untimed_of_unguarded (hphase : b.runner.phase = .waiting wait watch) (hguarded : wait.guarded = false) :
    b.Untimed := by
  intro ms later
  have moved : b.Moved ms b.started := by
    intro wait' watch' hphase' hguarded'
    rw [hphase] at hphase'
    cases hphase'
    simp [hguarded] at hguarded'
  obtain ⟨started', hplay⟩ := play_later moved later
  change ((b.later ms b.started).play later).runner = _ ∧ ∃ clock, ((b.later ms b.started).play later).net = _
  rw [hplay]
  exact ⟨rfl, _, rfl⟩

/-- Wherever a session waits, with whatever turns it has come there, it does so with an operation that
began when its watch was set. Where a watchdog is meant for the operation, its whole period goes from
that time; where none is, time is no matter. -/
theorem watched_from_beginning (p : Profile) (hasRoots : Bool) (net : Network) (turns : List Turn)
    {wait : Wait} {watch : Bool} (h : ((create p hasRoots net).play turns).runner.phase = .waiting wait watch) :
    ∃ op, (create p hasRoots net).Began turns op ((create p hasRoots net).play turns).started ∧
      op.Awaits wait ∧
      match op with
      | .resolve | .connect | .writeLine _ => ((create p hasRoots net).play turns).Watched wait p.timeout
        ((create p hasRoots net).play turns).started
      | .handshake | .readLine => ((create p hasRoots net).play turns).Untimed := by
  obtain ⟨op, began⟩ := exists_began (by simp [create]) turns h
  have awaits := began.awaits h
  have hprofile : ((create p hasRoots net).play turns).runner.session.profile = p := by
    obtain ⟨moves, run⟩ := exists_run p hasRoots net turns
    obtain ⟨w, -, matched⟩ := Runner.run_matches run
    exact matched.1.profile
  refine ⟨op, began, awaits, ?_⟩
  cases hwatched : op.watched with
  | true =>
    have watched := watched_of_guarded h (awaits.guarded.trans hwatched)
    rw [hprofile] at watched
    cases op with
    | resolve | connect | writeLine text => exact watched
    | handshake | readLine => cases hwatched
  | false =>
    have untimed := untimed_of_unguarded h (awaits.guarded.trans hwatched)
    cases op with
    | resolve | connect | writeLine text => cases hwatched
    | handshake | readLine => exact untimed

/-- The welcome takes a minute; the line that is written next has its own fifteen seconds. -/
theorem write_timed_out_after_slow_welcome :
    ∃ p net turns op today stream rest,
      ((create p true net).play turns).runner.phase = .waiting (.transmit stream rest) false ∧
      (create p true net).Began turns op 60000 ∧ ((create p true net).play turns).net.clock = 75000 ∧
      ((create p true net).play turns).TimedOut ((create p true net).play (turns ++ [.move today])) := by
  let p : Profile := { host := "localhost", authTls := false, timeout := 15 }
  let net : Network := { scene := { lookup := .found [⟨.v4 ⟨#[127, 0, 0, 1], rfl⟩, 21⟩] } }
  let day : Date := ⟨2024, 1, 1, by decide⟩
  let turns : List Turn :=
    [.move day, .request day .connect] ++ List.replicate 8 (.move day) ++
      [.happen (.room (some 0)), .happen (.advance 60000), .happen (.feed (LineBuffer.encode "220 Welcome")),
        .move day, .move day, .move day, .happen (.advance 15000)]
  let stream : Stream := ⟨0, false⟩
  let rest := LineBuffer.encode "USER anonymous"
  let b := (create p true net).play turns
  obtain ⟨hphase, hstarted, hclock, hanswer⟩ :
      b.runner.phase = .waiting (.transmit stream rest) false ∧ b.started = 60000 ∧ b.net.clock = 75000 ∧
        (b.net.answer? b.runner.session.transport.trust (.transmit stream rest)).2 = none := by
    decide +kernel
  obtain ⟨op, began, awaits, watched⟩ := watched_from_beginning p true net turns hphase
  cases awaits with
  | writeLine text =>
    have hover : PeriodOver p.timeout b.started b.net.clock := by
      rw [hstarted, hclock, periodOver_iff (by decide)]
      decide
    have watched : b.Watched (.transmit stream rest) p.timeout b.started := watched
    have ended := watched.ended day hanswer hover
    rw [← play_concat] at ended
    exact ⟨p, net, turns, .writeLine text, day, stream, rest, hphase, hstarted ▸ began, hclock, ended⟩

end SessionBench

end Script

end FtpControl

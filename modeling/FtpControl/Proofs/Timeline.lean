import FtpControl.Proofs.Ending
import FtpControl.Script.SessionBench

namespace FtpControl

inductive Operation.Awaits : Operation → Wait → Prop
  | resolve (host : String) (port : UInt16) : Awaits .resolve (.lookup host port)
  | connect (endpoint : Endpoint) : Awaits .connect (.dial endpoint)
  | handshake (connection : Nat) (name : ServerName) : Awaits .handshake (.negotiate connection name)
  | writeLine (text : String) (stream : Stream) (rest : List UInt8) :
      Awaits (.writeLine text) (.transmit stream rest)
  | readLine (stream : Stream) : Awaits .readLine (.receive stream)

namespace Transport

variable {t : Transport} {op : Operation} {wait wait' : Wait} {x : Transport × Progress}

theorem ReadsOn.awaits (reads : ReadsOn t x) (h : x.2 = .blocked wait) : Operation.readLine.Awaits wait := by
  cases reads with
  | line _ _ | fails _ => cases h
  | waits _ _ _ =>
    obtain rfl := Progress.blocked.inj h
    exact .readLine _

theorem begin_awaits (h : (t.begin op).2 = .blocked wait) : op.Awaits wait := by
  have begins := t.begin_begins op
  generalize t.begin op = x at begins h
  cases begins with
  | reads reads => exact reads.awaits h
  | fails _ _ => cases h
  | looksUp | dials _ | negotiates _ _ _ | transmits _ _ =>
    obtain rfl := Progress.blocked.inj h
    constructor

theorem resume_awaits (awaits : op.Awaits wait) {answer : Answer} {x : Transport × Progress}
    (h : t.resume wait answer = some x) (hx : x.2 = .blocked wait') : op.Awaits wait' := by
  cases resume_resumes h with
  | finds _ _ _ _ | connects _ _ | passesOver _ _ _ | exhausts _ _ _ | secures _ _ | writes _ _
  | fails _ _ _ => cases hx
  | writesOn _ _ =>
    obtain rfl := Progress.blocked.inj hx
    cases awaits
    exact .writeLine _ _ _
  | reads _ _ reads =>
    cases awaits
    exact reads.awaits hx

end Transport

namespace Runner

variable {r r' : Runner} {today : Date} {input : Input} {wait : Wait} {watch : Bool}

theorem settle_waiting {s : Session} {watch' : Bool} {x : Transport × Progress}
    (h : (settle today s watch' x).phase = .waiting wait watch) :
    x.2 = .blocked wait ∧ watch' = watch := by
  obtain ⟨t, progress⟩ := x
  cases progress with
  | blocked other => simpa [settle] using h
  | done notice => cases notice <;> simp [settle] at h

/-- A session comes to wait as an operation begins or goes on, or it has waited before. -/
theorem step_waiting (hs : r.step? today input = some r') (h : r'.phase = .waiting wait watch) :
    (∃ op, r.phase = .ready op watch ∧ input = .proceed ∧ op.Awaits wait) ∨
      ∃ earlier, r.phase = .waiting earlier watch ∧
        ∀ op : Operation, op.Awaits earlier → op.Awaits wait := by
  obtain ⟨s, phase⟩ := r
  have interrupted : ∀ {watch' request}, (interrupt ⟨s, phase⟩ watch' request).phase =
      .waiting wait watch → phase = .waiting wait watch := by
    intro watch' request hp
    rcases interrupt_cases ⟨s, phase⟩ watch' request with ⟨-, hr⟩ | ⟨-, hr⟩
    · rw [hr] at hp
      cases hp
    · rw [hr] at hp
      exact hp
  cases phase with
  | head =>
    cases input with
    | proceed =>
      obtain rfl := Option.some.inj hs
      unfold atHead at h
      split at h
      next => cases h
      next =>
        split at h
        next =>
          split at h
          next => cases h
          next => split at h <;> cases h
        next => cases h
    | _ => cases hs
  | idle =>
    cases input with
    | request request =>
      obtain rfl := Option.some.inj hs
      cases h
    | close =>
      obtain rfl := Option.some.inj hs
      cases h
    | _ => cases hs
  | ready op watch' =>
    cases input with
    | proceed =>
      obtain rfl := Option.some.inj hs
      obtain ⟨hx, rfl⟩ := settle_waiting h
      exact Or.inl ⟨op, rfl, rfl, Transport.begin_awaits hx⟩
    | request request =>
      obtain rfl := Option.some.inj hs
      cases interrupted h
    | close =>
      obtain rfl := Option.some.inj hs
      cases h
    | answer answer => cases hs
  | waiting earlier watch' =>
    cases input with
    | proceed => cases hs
    | request request =>
      obtain rfl := Option.some.inj hs
      exact Or.inr ⟨wait, interrupted h, fun _ awaits => awaits⟩
    | close =>
      obtain rfl := Option.some.inj hs
      cases h
    | answer answer =>
      obtain ⟨x, hx, rfl⟩ := Option.map_eq_some_iff.mp hs
      obtain ⟨hblocked, rfl⟩ := settle_waiting h
      exact Or.inr ⟨earlier, rfl, fun op awaits => Transport.resume_awaits awaits hx hblocked⟩
  | «over» => cases hs

end Runner

namespace Script

namespace Network

def timed (net : Network) (clock : Nat) : Network :=
  { net with clock }

variable (net : Network) (clock : Nat)

@[simp] theorem timed_clock : (net.timed clock).clock = clock := rfl

theorem act_timed (connection : Nat) (f : Peer → Peer × Option Answer) :
    (net.timed clock).act connection f = ((net.act connection f).1.timed clock, (net.act connection f).2) := by
  simp only [act, timed]
  split <;> rfl

/-- The time is no matter to what comes of a wait. -/
theorem answer?_timed (trust : Trust) (wait : Wait) : (net.timed clock).answer? trust wait =
    ((net.answer? trust wait).1.timed clock, (net.answer? trust wait).2) := by
  cases wait with
  | lookup host port =>
    simp only [answer?, timed]
    split <;> rfl
  | dial endpoint =>
    simp only [answer?, timed]
    split <;> rfl
  | negotiate connection name => exact net.act_timed clock connection _
  | transmit stream rest =>
    simp only [answer?, timed]
    split <;> rfl
  | receive stream => exact net.act_timed clock _ _

theorem answer?_clock (trust : Trust) (wait : Wait) : (net.answer? trust wait).1.clock = net.clock := by
  have hnow : net.timed net.clock = net := rfl
  have h := net.answer?_timed net.clock trust wait
  rw [hnow] at h
  rw [h]
  rfl

theorem note_timed (wait : Wait) : (net.timed clock).note wait = (net.note wait).timed clock := by
  cases wait with
  | lookup host port => cases h : net.scene.systemResolver <;> simp [note, timed, h]
  | _ => rfl

theorem note_clock (wait : Wait) : (net.note wait).clock = net.clock := by
  cases wait with
  | lookup host port => cases h : net.scene.systemResolver <;> simp [note, h]
  | _ => rfl

end Network

/-- What can come next to a session on its network: it moves, something happens on the network, or its
owner asks for something or for nothing any more. -/
inductive Turn where
  | move (today : Date)
  | happen (what : Happening)
  | request (today : Date) (request : Request)
  | close (today : Date)
  deriving DecidableEq, Repr

namespace SessionBench

def turn (b : SessionBench) : Turn → SessionBench
  | .move today => (b.move today).1
  | .happen what => { b with net := b.net.happen what }
  | .request today request => (b.advance today (.request request)).getD b
  | .close today => (b.advance today .close).getD b

def play (b : SessionBench) (turns : List Turn) : SessionBench :=
  turns.foldl turn b

variable {b : SessionBench} {today : Date}

theorem play_append (b : SessionBench) (turns later : List Turn) :
    b.play (turns ++ later) = (b.play turns).play later :=
  List.foldl_append

theorem play_concat (b : SessionBench) (turns : List Turn) (t : Turn) :
    b.play (turns ++ [t]) = (b.play turns).turn t :=
  b.play_append turns [t]

theorem exists_play_of_moves (today : Date) (fuel : Nat) (b : SessionBench) :
    ∃ turns, b.moves today fuel = b.play turns := by
  induction fuel generalizing b with
  | zero => exact ⟨[], rfl⟩
  | succ fuel ih =>
    obtain ⟨turns, hturns⟩ := ih (b.move today).1
    rw [moves]
    split
    next b' hmove =>
      rw [hmove] at hturns
      exact ⟨.move today :: turns, hturns.trans (by simp [play, turn, hmove])⟩
    next b' hmove => exact ⟨[.move today], by simp [play, turn, hmove]⟩

/-- What is done to a session in a script is a row of turns. -/
theorem exists_play (today : Date) (b : SessionBench) :
    (∀ what, ∃ turns, b.happen today what = b.play (.happen what :: turns)) ∧
      (∀ request, ∃ turns,
        b.stimulate today (.request request) = b.play (.request today request :: turns)) ∧
        ∃ turns, b.stimulate today .close = b.play (.close today :: turns) :=
  ⟨fun _ => exists_play_of_moves today _ _, fun _ => exists_play_of_moves today _ _,
    exists_play_of_moves today _ _⟩

theorem advance_eq_some {input : Runner.Input} {b' : SessionBench} (h : b.advance today input = some b') :
    b.runner.step? today input = some b'.runner ∧ b'.started = b.started ∧ b'.net.clock = b.net.clock := by
  obtain ⟨r, hr, rfl⟩ := Option.map_eq_some_iff.mp h
  exact ⟨hr, rfl, rfl⟩

/-- What a turn does to the session: nothing, the beginning of an operation, or another step. Only
where an operation begins its watch is set. -/
inductive Turned (b : SessionBench) : Turn → SessionBench → Prop
  | rests {t b'} : b'.runner = b.runner → b'.started = b.started → Turned b t b'
  | begins {today op watch b'} : b.runner.phase = .ready op watch →
      b.runner.step? today .proceed = some b'.runner → b'.started = b.net.clock →
      Turned b (.move today) b'
  | steps {today input t b'} : (∀ op watch, b.runner.phase = .ready op watch → input ≠ .proceed) →
      b.runner.step? today input = some b'.runner → b'.started = b.started → Turned b t b'

theorem turn_turned (b : SessionBench) (t : Turn) : b.Turned t (b.turn t) := by
  have taken : ∀ {today input}, (∀ op watch, b.runner.phase = .ready op watch → input ≠ .proceed) →
      b.Turned t ((b.advance today input).getD b) := by
    intro today input hinput
    cases hadvance : b.advance today input with
    | none => exact .rests rfl rfl
    | some b' =>
      obtain ⟨hs, hstarted, -⟩ := advance_eq_some hadvance
      exact .steps hinput hs hstarted
  cases t with
  | happen what => exact .rests rfl rfl
  | request today request => exact taken fun _ _ _ => nofun
  | close today => exact taken fun _ _ _ => nofun
  | move today =>
    rw [turn, move]
    split
    next hphase => exact taken fun op watch h => by simp [hphase] at h
    next op watch hphase =>
      cases hbegin : b.beginOperation today with
      | none => exact .rests rfl rfl
      | some b' =>
        obtain ⟨next, hnext, rfl⟩ := Option.map_eq_some_iff.mp hbegin
        obtain ⟨hs, -, hclock⟩ := advance_eq_some hnext
        refine .begins hphase hs ?_
        dsimp only [Option.getD_some]
        split
        next wait _ => rw [Network.note_clock, hclock]
        next => exact hclock
    next wait watch hphase =>
      have hnot : ∀ answer, ∀ op watch, b.runner.phase = .ready op watch →
          Runner.Input.answer answer ≠ .proceed := fun _ _ _ _ => nofun
      dsimp only
      split
      next answer _ =>
        split
        next b' hadvance =>
          obtain ⟨hs, hstarted, -⟩ := advance_eq_some hadvance
          exact .steps (hnot answer) hs hstarted
        next => exact .rests rfl rfl
      next => exact .rests rfl rfl
    next => exact .rests rfl rfl
    next => exact .rests rfl rfl

/-- At the end of these turns an operation is under way that began when the clock stood there: the
session has waited with it ever since. -/
def Began (first : SessionBench) (turns : List Turn) (op : Operation) (clock : Nat) : Prop :=
  ∃ before today later watch, turns = before ++ .move today :: later ∧
    (first.play before).runner.phase = .ready op watch ∧ (first.play before).net.clock = clock ∧
    ∀ part, part <+: later → ∃ wait, op.Awaits wait ∧
      (first.play (before ++ .move today :: part)).runner.phase = .waiting wait watch

theorem Began.awaits {first : SessionBench} {turns : List Turn} {op : Operation} {clock : Nat}
    (h : first.Began turns op clock) {wait : Wait} {watch : Bool}
    (hwait : (first.play turns).runner.phase = .waiting wait watch) : op.Awaits wait := by
  obtain ⟨before, today, later, watch', rfl, -, -, hpart⟩ := h
  obtain ⟨wait', awaits, hphase⟩ := hpart later List.prefix_rfl
  rw [hwait] at hphase
  cases hphase
  exact awaits

/-- Wherever a session waits, an operation is under way, and the watch goes back to its beginning. -/
theorem exists_began {first : SessionBench} (hfirst : ∀ wait watch, first.runner.phase ≠ .waiting wait watch)
    (turns : List Turn) {wait : Wait} {watch : Bool}
    (hwait : (first.play turns).runner.phase = .waiting wait watch) :
    ∃ op, first.Began turns op (first.play turns).started := by
  induction turns using List.reverseRecOn generalizing wait watch with
  | nil => exact absurd hwait (hfirst wait watch)
  | append_singleton turns t ih =>
    have hturned := (first.play turns).turn_turned t
    rw [play_concat] at hwait ⊢
    generalize hb' : (first.play turns).turn t = b' at hwait hturned ⊢
    -- The operation that was under way still is.
    have goes_on : ∀ {earlier}, (first.play turns).runner.phase = .waiting earlier watch →
        (∀ op : Operation, op.Awaits earlier → op.Awaits wait) →
        b'.started = (first.play turns).started → ∃ op, first.Began (turns ++ [t]) op b'.started := by
      intro earlier hearlier hawaits hstarted
      obtain ⟨op, began⟩ := ih hearlier
      have hop := began.awaits hearlier
      obtain ⟨before, today, later, watch', hturns, hready, hclock, hpart⟩ := began
      have hwatch : watch' = watch := by
        obtain ⟨wait', -, hphase⟩ := hpart later List.prefix_rfl
        rw [← hturns, hearlier] at hphase
        cases hphase
        rfl
      subst hwatch
      refine ⟨op, before, today, later ++ [t], watch', by simp [hturns], hready,
        hclock.trans hstarted.symm, fun part hprefix => ?_⟩
      rcases List.prefix_concat_iff.mp hprefix with rfl | hprefix
      · refine ⟨wait, hawaits op hop, ?_⟩
        rw [show before ++ .move today :: (later ++ [t]) = turns ++ [t] by simp [hturns], play_concat, hb']
        exact hwait
      · exact hpart part hprefix
    cases hturned with
    | rests hrunner hstarted =>
      rw [hrunner] at hwait
      exact goes_on hwait (fun _ awaits => awaits) hstarted
    | @begins today op watch' b' hready hs hstarted =>
      rcases Runner.step_waiting hs hwait with ⟨op', hphase, -, awaits⟩ | ⟨earlier, hphase, -⟩
      · refine ⟨op', turns, today, [], watch, rfl, hphase, hstarted.symm, fun part hprefix => ?_⟩
        obtain rfl := List.prefix_nil.mp hprefix
        exact ⟨wait, awaits, by rw [play_concat, hb']; exact hwait⟩
      · rw [hready] at hphase
        cases hphase
    | steps hinput hs hstarted =>
      rcases Runner.step_waiting hs hwait with ⟨op', hphase, rfl, -⟩ | ⟨earlier, hphase, hawaits⟩
      · exact absurd rfl (hinput op' watch hphase)
      · exact goes_on hphase hawaits hstarted

/-- Turn by turn a session makes a run. -/
theorem exists_run (p : Profile) (hasRoots : Bool) (net : Network) (turns : List Turn) :
    ∃ moves, Runner.Run (.start p hasRoots) moves ((create p hasRoots net).play turns).runner := by
  induction turns using List.reverseRecOn with
  | nil => exact ⟨[], .start⟩
  | append_singleton turns t ih =>
    obtain ⟨moves, run⟩ := ih
    have hturned := ((create p hasRoots net).play turns).turn_turned t
    rw [play_concat]
    cases hturned with
    | rests hrunner _ => exact ⟨moves, hrunner ▸ run⟩
    | begins _ hs _ => exact ⟨_, run.next hs⟩
    | steps _ hs _ => exact ⟨_, run.next hs⟩

end SessionBench

end Script

end FtpControl

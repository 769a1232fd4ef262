import FtpControl.Session.Runner

namespace FtpControl

/-- What happens on a control connection. -/
inductive Deed where
  /-- The connection stands, in plain. -/
  | opened (connection : Nat)
  /-- A line is about to be sent. -/
  | began (stream : Stream) (line : String)
  | wrote (stream : Stream) (bytes : List UInt8)
  | received (stream : Stream) (bytes : List UInt8)
  /-- The session is given a line, which these received bytes make up. -/
  | heard (stage : Stage) (bytes : List UInt8) (line : String)
  /-- A handshake has succeeded. -/
  | secured (connection : Nat)
  /-- A handshake has failed, or was dropped. -/
  | unsecured (connection : Nat)
  deriving DecidableEq, Repr

namespace Deed

def ofBuffer (stage : Stage) (buffer : List UInt8) : List Deed :=
  match LineBuffer.takeLine? buffer with
  | some (line, rest) => [.heard stage (buffer.take (buffer.length - rest.length)) line]
  | none => []

/-- What has happened on the connection that was opened last. -/
def latest (deeds : List Deed) : List Deed :=
  deeds.foldl (fun talk d => match d with | .opened _ => [] | d => talk ++ [d]) []

def connection? (deeds : List Deed) : Option Nat :=
  deeds.foldl (fun last d => match d with | .opened c => some c | _ => last) none

def outgoing? : Deed → Option Stream
  | .began stream _ | .wrote stream _ => some stream
  | _ => none

def written (on : Stream → Bool) (deeds : List Deed) : List UInt8 :=
  deeds.flatMap fun d =>
    match d with
    | .wrote stream bytes => if on stream then bytes else []
    | _ => []

theorem latest_append_opened (deeds : List Deed) (c : Nat) :
    latest (deeds ++ [.opened c]) = [] := by
  simp [latest]

theorem latest_append {d : Deed} (deeds : List Deed) (hd : ∀ c, d ≠ .opened c) :
    latest (deeds ++ [d]) = latest deeds ++ [d] := by
  cases d with
  | opened c => exact absurd rfl (hd c)
  | _ => simp [latest]

theorem connection?_append_opened (deeds : List Deed) (c : Nat) :
    connection? (deeds ++ [.opened c]) = some c := by
  simp [connection?]

theorem connection?_append {d : Deed} (deeds : List Deed) (hd : ∀ c, d ≠ .opened c) :
    connection? (deeds ++ [d]) = connection? deeds := by
  cases d with
  | opened c => exact absurd rfl (hd c)
  | _ => simp [connection?]

theorem written_append_singleton {d : Deed} (on : Stream → Bool) (deeds : List Deed)
    (hd : ∀ stream bytes, d ≠ .wrote stream bytes) : written on (deeds ++ [d]) = written on deeds := by
  cases d with
  | wrote stream bytes => exact absurd rfl (hd stream bytes)
  | _ => simp [written]

theorem written_append_wrote (on : Stream → Bool) (deeds : List Deed) (stream : Stream)
    (bytes : List UInt8) : written on (deeds ++ [.wrote stream bytes]) =
      written on deeds ++ if on stream then bytes else [] := by
  simp [written]

end Deed

namespace Runner

def start (profile : Profile) (hasRoots : Bool) : Runner :=
  { session := .create profile hasRoots }

def shaking? (r : Runner) : Option Nat :=
  match r.phase with
  | .ready .handshake _ => r.session.transport.stream.map Stream.connection
  | .waiting (.negotiate connection _) _ => some connection
  | _ => none

/-- What a step does on the connection, the end of a handshake that fails apart. -/
def acts (r : Runner) (input : Input) : List Deed :=
  match r.phase, input with
  | .ready (.writeLine line) _, .proceed =>
    r.session.transport.stream.toList.map fun stream => .began stream line
  | .ready .readLine _, .proceed => Deed.ofBuffer r.session.stage r.session.transport.buffer
  | .waiting (.dial _) _, .answer (.accepted connection) => [.opened connection]
  | .waiting (.negotiate connection _) _, .answer .secured => [.secured connection]
  | .waiting (.transmit stream rest) _, .answer (.took count) => [.wrote stream (rest.take count)]
  | .waiting (.receive stream) _, .answer (.received chunk) =>
    .received stream chunk.bytes ::
      Deed.ofBuffer r.session.stage (r.session.transport.buffer ++ chunk.bytes)
  | _, _ => []

/-- One step of a run. -/
structure Move where
  before : Runner
  input : Input
  after : Runner

/-- The handshake that a step puts an end to without success. -/
def Move.lost (m : Move) : List Deed :=
  match m.before.shaking? with
  | some c =>
    if m.after.shaking? = some c ∨ m.input = .answer .secured then [] else [.unsecured c]
  | none => []

theorem Move.lost_cases (m : Move) : m.lost = [] ∨ ∃ c, m.lost = [.unsecured c] := by
  unfold lost
  split
  next c _ =>
    split
    next => exact Or.inl rfl
    next => exact Or.inr ⟨c, rfl⟩
  next => exact Or.inl rfl

def Move.deeds (m : Move) : List Deed :=
  m.before.acts m.input ++ m.lost

def deeds (moves : List Move) : List Deed :=
  moves.flatMap Move.deeds

/-- The steps that lead from one state to another, each on a day of its own. -/
inductive Run (first : Runner) : List Move → Runner → Prop
  | start : Run first [] first
  | next {moves r today input r'} : Run first moves r → r.step? today input = some r' →
      Run first (moves ++ [⟨r, input, r'⟩]) r'

def play (r : Runner) : List (Date × Input) → Option (List Move × Runner)
  | [] => some ([], r)
  | (today, input) :: inputs =>
    match r.step? today input with
    | none => none
    | some r' => (r'.play inputs).map fun (moves, last) => (⟨r, input, r'⟩ :: moves, last)

theorem play_of_step {r r' last : Runner} {today : Date} {input : Input} {inputs : List (Date × Input)}
    {moves : List Move} (hs : r.step? today input = some r') (hp : r'.play inputs = some (moves, last)) :
    r.play ((today, input) :: inputs) = some (⟨r, input, r'⟩ :: moves, last) := by
  rw [play, hs]
  dsimp only
  rw [hp]
  rfl

theorem Run.first {first r r' : Runner} {today : Date} {input : Input} {moves : List Move}
    {last : Runner} (run : Run r' moves last) (hs : r.step? today input = some r') (hr : first = r) :
    Run first (⟨r, input, r'⟩ :: moves) last := by
  subst hr
  induction run with
  | start => exact Run.start.next hs
  | next _ hn ih => exact ih.next hn

theorem Run.append {first r last : Runner} {moves later : List Move} (run : Run first moves r)
    (more : Run r later last) : Run first (moves ++ later) last := by
  induction more with
  | start => simpa using run
  | next _ hs ih =>
    rw [← List.append_assoc]
    exact ih.next hs

theorem run_of_play {inputs : List (Date × Input)} {r last : Runner} {moves : List Move}
    (h : r.play inputs = some (moves, last)) : Run r moves last := by
  induction inputs generalizing r moves with
  | nil =>
    obtain ⟨rfl, rfl⟩ := Prod.mk.inj (Option.some.inj h)
    exact .start
  | cons entry inputs ih =>
    obtain ⟨today, input⟩ := entry
    simp only [play] at h
    split at h
    next => simp at h
    next r' hs =>
      obtain ⟨⟨later, final⟩, hp, he⟩ := Option.map_eq_some_iff.mp h
      obtain ⟨rfl, rfl⟩ := Prod.mk.inj he
      exact (ih hp).first hs rfl

/-- Each step of a run goes on from where a run leads. -/
theorem Run.of_mem {first r : Runner} {moves : List Move} {m : Move} (run : Run first moves r)
    (hm : m ∈ moves) :
    ∃ earlier today, Run first earlier m.before ∧ m.before.step? today m.input = some m.after := by
  induction run with
  | start => simp at hm
  | next run hs ih =>
    rcases List.mem_append.mp hm with hm | hm
    · exact ih hm
    · rw [List.mem_singleton.mp hm]
      exact ⟨_, _, run, hs⟩

theorem deeds_append (moves : List Move) (m : Move) :
    deeds (moves ++ [m]) = deeds moves ++ m.deeds := by
  simp [deeds]

def Input.told (text : String) : Input :=
  let bytes := Utf8.encode text.toList
  if h : bytes ≠ [] ∧ bytes.length ≤ LineBuffer.chunkSize then .answer (.received ⟨bytes, h.1, h.2⟩)
  else .answer .ended

def Input.welcomed (c : Nat) (welcome : String) : List Input :=
  [.proceed, .request .connect, .proceed, .proceed,
    .answer (.found [⟨.v4 ⟨#[10, 0, 0, 1], rfl⟩, 21⟩]), .proceed, .proceed, .answer (.accepted c),
    .proceed, .proceed, .told welcome]

def Input.exchanged (command : Command) (reply : String) : List Input :=
  [.proceed, .proceed, .answer (.took (LineBuffer.encode command.line).length), .proceed, .proceed,
    .told reply]

def Input.shaken : List Input :=
  [.proceed, .proceed, .answer .secured]

/-- The steps that these inputs make on one day. -/
def rehearse (profile : Profile) (inputs : List Input) : Option (List Move × Runner) :=
  (start profile true).play (inputs.map fun input => (⟨2024, 1, 1, by decide⟩, input))

end Runner

end FtpControl

import FtpControl.Transport
import Mathlib.Data.List.TakeWhile

namespace FtpControl

open LineBuffer

theorem LineBuffer.takeLine?_eq_none {buffer : List UInt8} (h : takeLine? buffer = none) :
    feed ∉ buffer := by
  unfold takeLine? at h
  split at h
  next hd =>
    intro hm
    simpa using List.dropWhile_eq_nil_iff.mp hd feed hm
  next => simp at h

/-- An answer that brings what was waited for. Of addresses, none may be of use. -/
def Answer.succeeds : Answer → Bool
  | .accepted _ | .secured | .took _ | .received _ => true
  | _ => false

namespace Transport

/-- What a read can come to as it looks at the buffer. -/
inductive ReadsOn (t : Transport) : Transport × Progress → Prop
  | line {head rest : List UInt8} : feed ∉ head → t.buffer = head ++ feed :: rest →
      ReadsOn t ({ t with buffer := rest }.finish (.line (text head)))
  | fails (message : String) : ReadsOn t (t.fatal message)
  | waits {stream : Stream} : t.stream = some stream → feed ∉ t.buffer →
      t.buffer.length ≤ maxLine → ReadsOn t (t, .blocked (.receive stream))

/-- What an operation can come to as it begins. -/
inductive Begins (t : Transport) : Operation → Transport × Progress → Prop
  | looksUp : Begins t .resolve (t, .blocked (.lookup t.host t.port))
  | dials {endpoint : Endpoint} {candidates : List Endpoint} : t.candidates = endpoint :: candidates →
      Begins t .connect ({ t with candidates }, .blocked (.dial endpoint))
  | negotiates {stream : Stream} (name : ServerName) : t.stream = some stream →
      stream.secure = false → Begins t .handshake
        ({ t with stream := none }, .blocked (.negotiate stream.connection name))
  | transmits {stream : Stream} (text : String) : t.stream = some stream →
      Begins t (.writeLine text) (t, .blocked (.transmit stream (encode text)))
  | reads {x : Transport × Progress} : ReadsOn t x → Begins t .readLine x
  | fails (op : Operation) (message : String) : Begins t op (t.fatal message)

/-- What an operation can come to as it goes on. -/
inductive Resumes (t : Transport) : Wait → Answer → Transport × Progress → Prop
  | finds (host : String) (port : UInt16) (endpoints : List Endpoint) {candidates : List Endpoint} :
      candidates ≠ [] → Resumes t (.lookup host port) (.found endpoints)
        ({ t with candidates }.pushFront .connect, .done none)
  | connects (endpoint : Endpoint) (connection : Nat) : Resumes t (.dial endpoint) (.accepted connection)
      ({ t with stream := some ⟨connection, false⟩, candidates := [] }.finish .connected)
  | passesOver (endpoint : Endpoint) (message : String) : t.candidates ≠ [] →
      Resumes t (.dial endpoint) (.refused message)
        ((t.pushFront .connect).finish (.endpointFailed (endpoint.text ++ ": " ++ message) false))
  | exhausts (endpoint : Endpoint) (message : String) : t.candidates = [] →
      Resumes t (.dial endpoint) (.refused message)
        (t.finish (.endpointFailed (endpoint.text ++ ": " ++ message) true))
  | secures (connection : Nat) (name : ServerName) : Resumes t (.negotiate connection name) .secured
      ({ t with stream := some ⟨connection, true⟩, encrypted := true }.finish .handshakeDone)
  | writes (stream : Stream) {rest : List UInt8} {count : Nat} : rest.drop count = [] →
      Resumes t (.transmit stream rest) (.took count) (t.finish .written)
  | writesOn (stream : Stream) {rest : List UInt8} {count : Nat} : rest.drop count ≠ [] →
      Resumes t (.transmit stream rest) (.took count) (t, .blocked (.transmit stream (rest.drop count)))
  | reads (stream : Stream) (chunk : Chunk) {x : Transport × Progress} :
      ReadsOn { t with buffer := t.buffer ++ chunk.bytes } x →
      Resumes t (.receive stream) (.received chunk) x
  | fails (wait : Wait) {answer : Answer} (message : String) : answer.succeeds = false →
      Resumes t wait answer (t.fatal message)

variable {t : Transport} {wait : Wait} {answer : Answer} {x : Transport × Progress}

theorem readOn_readsOn (t : Transport) : ReadsOn t t.readOn := by
  unfold readOn
  split
  next line rest hl =>
    obtain ⟨head, hsplit, hn, rfl⟩ := takeLine?_eq_some hl
    exact .line hn hsplit
  next hl =>
    split
    next => exact .fails _
    next hlong =>
      split
      next => exact .fails _
      next stream hs => exact .waits hs (takeLine?_eq_none hl) (Nat.not_lt.mp hlong)

theorem begin_begins (t : Transport) (op : Operation) : Begins t op (t.begin op) := by
  cases op with
  | resolve => exact .looksUp
  | connect =>
    change Begins t .connect t.dialNext
    unfold dialNext
    split
    next => exact .fails _ _
    next endpoint candidates hc => exact .dials hc
  | handshake =>
    change Begins t .handshake t.beginHandshake
    unfold beginHandshake
    split
    next => exact .fails _ _
    next stream hs =>
      split
      next => exact .fails _ _
      next plain =>
        dsimp only
        split
        next => exact .fails _ _
        next =>
          split
          next => exact .fails _ _
          next name _ => exact .negotiates name hs (by simpa using plain)
  | writeLine text =>
    change Begins t (.writeLine text) (t.beginWrite text)
    unfold beginWrite
    split
    next => exact .fails _ _
    next stream hs => exact .transmits text hs
  | readLine => exact .reads t.readOn_readsOn

theorem resume_resumes (h : t.resume wait answer = some x) : Resumes t wait answer x := by
  cases wait with
  | lookup host port =>
    cases answer with
    | found endpoints =>
      obtain rfl := Option.some.inj h
      unfold resolved
      dsimp only
      split
      next => exact .fails _ _ rfl
      next hc => exact .finds host port endpoints (by simpa using hc)
    | lookupFailed message =>
      obtain rfl := Option.some.inj h
      exact .fails _ message rfl
    | expired =>
      obtain rfl := Option.some.inj h
      exact .fails _ _ rfl
    | _ => simp [resume] at h
  | dial endpoint =>
    cases answer with
    | accepted c =>
      obtain rfl := Option.some.inj h
      exact .connects endpoint c
    | refused message =>
      obtain rfl := Option.some.inj h
      unfold failOver
      cases hc : t.candidates with
      | nil => exact .exhausts endpoint message hc
      | cons other candidates => exact .passesOver endpoint message (by simp [hc])
    | expired =>
      obtain rfl := Option.some.inj h
      exact .fails _ _ rfl
    | _ => simp [resume] at h
  | negotiate c name =>
    cases answer with
    | secured =>
      obtain rfl := Option.some.inj h
      exact .secures c name
    | handshakeFailed message =>
      obtain rfl := Option.some.inj h
      exact .fails _ _ rfl
    | _ => simp [resume, Wait.guarded] at h
  | transmit stream rest =>
    cases answer with
    | took count =>
      simp only [resume] at h
      split at h
      next he =>
        obtain rfl := Option.some.inj h
        exact .writes stream (List.isEmpty_iff.mp he)
      next he =>
        obtain rfl := Option.some.inj h
        exact .writesOn stream fun hn => he (List.isEmpty_iff.mpr hn)
    | writeFailed message =>
      obtain rfl := Option.some.inj h
      exact .fails _ message rfl
    | expired =>
      obtain rfl := Option.some.inj h
      exact .fails _ _ rfl
    | _ => simp [resume] at h
  | receive stream =>
    cases answer with
    | received chunk =>
      obtain rfl := Option.some.inj h
      exact .reads stream chunk (readOn_readsOn _)
    | ended =>
      obtain rfl := Option.some.inj h
      exact .fails _ _ rfl
    | readFailed message =>
      obtain rfl := Option.some.inj h
      exact .fails _ message rfl
    | _ => simp [resume, Wait.guarded] at h

end Transport

end FtpControl

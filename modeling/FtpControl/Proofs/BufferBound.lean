import FtpControl.Proofs.ConsistentUse
import FtpControl.Proofs.LineLimit

namespace FtpControl

open LineBuffer

def Answer.chunk? : Answer → Option Chunk
  | .received chunk => some chunk
  | _ => none

theorem LineBuffer.length_le_joined (chunks : List Chunk) : chunks.length ≤ (joined chunks).length := by
  induction chunks with
  | nil => exact Nat.le_refl 0
  | cons chunk chunks ih =>
    have hsplit : joined (chunk :: chunks) = chunk.bytes ++ joined chunks := List.flatMap_cons
    have hpos := List.length_pos_iff.mpr chunk.nonempty
    rw [hsplit, List.length_append, List.length_cons]
    omega

theorem LineBuffer.length_singles (bytes : List UInt8) : (singles bytes).length = bytes.length :=
  List.length_map _

theorem Answer.filterMap_received (chunks : List Chunk) :
    (chunks.map Answer.received).filterMap Answer.chunk? = chunks := by
  rw [List.filterMap_map]
  exact List.filterMap_some

namespace Transport

/-- Not too much is in store, and no line while a read waits for one. -/
structure Stocked (x : Transport × Progress) : Prop where
  room : x.1.buffer.length ≤ maxLine
  waits : ∀ stream, x.2 = .blocked (.receive stream) → feed ∉ x.1.buffer

/-- How far these chunks have taken a read. -/
inductive ReadsTo (next : Transport) (chunks : List Chunk) : Transport × Progress → Prop
  | line (later : Transport) (text : String) : ReadsTo next chunks (later.finish (.line text))
  | fails (later : Transport) (message : String) : ReadsTo next chunks (later.fatal message)
  | waits {stream : Stream} : next.stream = some stream → feed ∉ next.buffer ++ joined chunks →
      (next.buffer ++ joined chunks).length ≤ maxLine →
      ReadsTo next chunks ({ next with buffer := next.buffer ++ joined chunks }, .blocked (.receive stream))

variable {t next : Transport} {op : Operation} {wait : Wait} {answer : Answer} {x : Transport × Progress}

theorem stocked_fatal (t : Transport) (message : String) : Stocked (t.fatal message) :=
  ⟨Nat.zero_le _, by simp [fatal]⟩

theorem stocked_readsOn (h : ReadsOn t x)
    (short : ∀ head rest, t.buffer = head ++ feed :: rest → feed ∉ head → rest.length ≤ maxLine) :
    Stocked x := by
  cases h with
  | line hn hsplit => exact ⟨short _ _ hsplit hn, by simp [finish]⟩
  | fails message => exact stocked_fatal t message
  | waits _ hn hle => exact ⟨hle, fun _ _ => hn⟩

/-- What is left behind a line is less than before. -/
theorem stocked_begin (room : t.buffer.length ≤ maxLine) (h : Begins t op x) : Stocked x := by
  cases h with
  | looksUp | dials _ | negotiates _ _ _ | transmits _ _ => exact ⟨room, by simp⟩
  | reads reads =>
    refine stocked_readsOn reads fun head rest hsplit _ => ?_
    rw [hsplit, List.length_append, List.length_cons] at room
    omega
  | fails _ message => exact stocked_fatal t message

/-- A line that a chunk completes takes all that was in store before, so that less than the chunk is
left. -/
theorem stocked_resume (h : Stocked (t, .blocked wait)) (resumes : Resumes t wait answer x) : Stocked x := by
  cases resumes with
  | finds _ _ _ _ | connects _ _ | passesOver _ _ _ | exhausts _ _ _ | secures _ _ | writes _ _ =>
    exact ⟨h.room, by simp [finish]⟩
  | writesOn _ _ => exact ⟨h.room, by simp⟩
  | reads stream chunk reads =>
    refine stocked_readsOn reads fun head rest hsplit _ => ?_
    have hsplit : t.buffer ++ chunk.bytes = head ++ feed :: rest := hsplit
    have hle := length_le_of_prefix ⟨chunk.bytes, hsplit⟩ (h.waits stream rfl)
    have hlen := congrArg List.length hsplit
    have hbounded := chunk.bounded
    have hmax : chunkSize ≤ maxLine := by decide
    rw [List.length_append, List.length_append, List.length_cons] at hlen
    omega
  | fails _ message _ => exact stocked_fatal t message

theorem stocked_executed (room : t.buffer.length ≤ maxLine) (hnext : t.next? = some (op, next))
    (answers : List Answer) : Stocked (follow (next.begin op) answers) := by
  have hroom : next.buffer.length ≤ maxLine := by
    rw [(next?_eq_some hnext).2]
    exact room
  exact follow_keeps stocked_resume (stocked_begin hroom (next.begin_begins op)) answers

theorem Used.room (used : t.Used) : t.buffer.length ≤ maxLine :=
  used.keeps (fun _ => Nat.zero_le _) (fun _ _ _ _ => Nat.zero_le _) (fun _ => Nat.zero_le _)
    (fun h _ _ => h) (fun h hnext => by rw [(next?_eq_some hnext).2]; exact h)
    fun answers h hnext => (stocked_executed h hnext answers).room

theorem readsTo_readsOn {chunks : List Chunk}
    (h : ReadsOn { next with buffer := next.buffer ++ joined chunks } x) : ReadsTo next chunks x := by
  cases h with
  | line _ _ => exact .line _ _
  | fails message => exact .fails _ message
  | waits hs hn hle => exact .waits hs hn hle

theorem readsTo_follow (next : Transport) (answers : List Answer) :
    ReadsTo next (answers.filterMap Answer.chunk?) (follow (next.begin .readLine) answers) := by
  induction answers using List.reverseRecOn with
  | nil =>
    have hnone : next.buffer ++ joined [] = next.buffer := List.append_nil _
    refine readsTo_readsOn ?_
    rw [List.filterMap_nil, hnone]
    exact next.readOn_readsOn
  | append_singleton answers answer ih =>
    rw [follow_concat, List.filterMap_append]
    generalize answers.filterMap Answer.chunk? = chunks at ih ⊢
    generalize follow (next.begin .readLine) answers = x at ih ⊢
    cases ih with
    | line later text => exact .line later text
    | fails later message => exact .fails later message
    | @waits stream hs hn hle =>
      have same : ReadsTo next (chunks ++ []) ({ next with buffer := next.buffer ++ joined chunks },
          .blocked (.receive stream)) := by
        rw [List.append_nil]
        exact .waits hs hn hle
      cases answer with
      | received chunk =>
        have hjoined : next.buffer ++ joined chunks ++ chunk.bytes =
            next.buffer ++ joined (chunks ++ [chunk]) := by simp [joined]
        have hread : respond ({ next with buffer := next.buffer ++ joined chunks },
            .blocked (.receive stream)) (.received chunk) =
              ({ next with buffer := next.buffer ++ joined (chunks ++ [chunk]) } : Transport).readOn := by
          rw [← hjoined]
          rfl
        rw [hread]
        exact readsTo_readsOn (readOn_readsOn _)
      | ended => exact .fails _ _
      | readFailed message => exact .fails _ message
      | _ => exact same

/-- With each chunk there is a byte more in store. -/
theorem ReadsTo.waits_length {chunks : List Chunk} (h : ReadsTo next chunks (t, .blocked wait)) :
    next.buffer.length + chunks.length ≤ maxLine := by
  cases h with
  | waits _ _ hle =>
    have hjoined := length_le_joined chunks
    rw [List.length_append] at hle
    omega

theorem follow_received (next : Transport) (chunks : List Chunk) :
    follow (next.begin .readLine) (chunks.map Answer.received) = next.read chunks := by
  have hstep : ∀ (x : Transport × Progress) (chunk : Chunk), respond x (.received chunk) = goOn x chunk := by
    rintro ⟨t, progress⟩ chunk
    cases progress <;> rfl
  rw [follow, List.foldl_map, read]
  exact congrArg (fun step => chunks.foldl step _) (funext fun x => funext (hstep x))

theorem read_singles {stream : Stream} {bytes : List UInt8} (hs : next.stream = some stream)
    (hb : next.buffer = []) (hn : feed ∉ bytes) :
    (bytes.length ≤ maxLine →
      next.read (singles bytes) = ({ next with buffer := bytes }, .blocked (.receive stream))) ∧
    (maxLine < bytes.length →
      next.read (singles bytes) =
        (next.disconnect, .done (some (.error "Line exceeds 65536 bytes." true)))) := by
  have hjoined : next.buffer ++ joined (singles bytes) = bytes := by
    rw [hb, List.nil_append, joined_singles]
  refine ⟨fun hle => ?_, fun hlong => read_overlong hs ⟨singles bytes, List.prefix_rfl, ?_, ?_⟩⟩
  · have clear : ¬Overrun next.buffer (singles bytes) := by
      rintro ⟨early, he, _, hlong⟩
      have hearly := (joined_isPrefix he).length_le
      rw [joined_singles] at hearly
      rw [hb, List.nil_append] at hlong
      omega
    have hread := read_waits hs clear (by rwa [hjoined])
    rwa [hjoined] at hread
  · rwa [hjoined]
  · rwa [hjoined]

/-- However a connection is used and whatever the other side sends, there are never more bytes in store
than the longest line and one chunk, and a read comes to an end with the chunk after as many as there
may be bytes in a line, if not before: with a line, or with a failure that leaves nothing of the
connection. The same bounds hold of the connection of a session. -/
theorem store_is_bounded :
    (∀ t : Transport, t.Used →
      t.buffer.length ≤ 65536 ∧
      (∀ op next answers, t.next? = some (op, next) →
        (follow (next.begin op) answers).1.buffer.length ≤ 65536 ∧
        ∀ chunk : Chunk, ((follow (next.begin op) answers).1.buffer ++ chunk.bytes).length ≤ 69632) ∧
      ∀ next answers, t.next? = some (.readLine, next) →
        ((∃ stream, (follow (next.begin .readLine) answers).2 = .blocked (.receive stream) ∧
            next.buffer.length + (answers.filterMap Answer.chunk?).length ≤ 65536) ∨
          (∃ text, (follow (next.begin .readLine) answers).2 = .done (some (.line text))) ∨
          ∃ message, (follow (next.begin .readLine) answers).2 = .done (some (.error message true)) ∧
            (follow (next.begin .readLine) answers).1.Emptied) ∧
        (65537 ≤ (answers.filterMap Answer.chunk?).length →
          ∀ wait, (follow (next.begin .readLine) answers).2 ≠ .blocked wait)) ∧
    ∀ {p : Profile} {hasRoots : Bool} {moves : List Runner.Move} {r : Runner},
      Runner.Run (Runner.start p hasRoots) moves r →
      r.session.transport.buffer.length ≤ 65536 ∧
        ∀ chunk : Chunk, (r.session.transport.buffer ++ chunk.bytes).length ≤ 69632 := by
  have atMost : ∀ {buffer : List UInt8}, buffer.length ≤ maxLine →
      ∀ chunk : Chunk, (buffer ++ chunk.bytes).length ≤ 69632 := by
    intro buffer hle chunk
    have hbounded := chunk.bounded
    rw [List.length_append]
    simp only [maxLine, chunkSize] at hle hbounded
    omega
  refine ⟨fun t used => ⟨used.room, ?_, ?_⟩, fun run => ?_⟩
  · intro op next answers hnext
    have hroom := (stocked_executed used.room hnext answers).room
    exact ⟨hroom, atMost hroom⟩
  · intro next answers hnext
    have h := readsTo_follow next answers
    generalize follow (next.begin .readLine) answers = x at h ⊢
    generalize answers.filterMap Answer.chunk? = chunks at h ⊢
    cases h with
    | line later text => exact ⟨Or.inr (Or.inl ⟨text, rfl⟩), by simp [finish]⟩
    | fails later message =>
      exact ⟨Or.inr (Or.inr ⟨message, rfl, later.disconnect_emptied⟩), by simp [fatal]⟩
    | @waits stream hs hn hle =>
      have hlen := (ReadsTo.waits hs hn hle).waits_length
      have hmax : maxLine = 65536 := rfl
      exact ⟨Or.inl ⟨stream, rfl, by omega⟩, fun hmany => by omega⟩
  · have hroom := run.conducts.used.room
    exact ⟨hroom, atMost hroom⟩

/-- Both bounds are reached by a server that sends one byte at a time and no line feed. -/
theorem store_filled_byte_by_byte :
    ∃ (t next : Transport) (stream : Stream) (full more : List Answer) (chunk : Chunk)
      (p : Profile) (moves : List Runner.Move) (r : Runner),
      t.Used ∧ t.next? = some (.readLine, next) ∧
      (full.filterMap Answer.chunk?).length = 65536 ∧
      (follow (next.begin .readLine) full).2 = .blocked (.receive stream) ∧
      (follow (next.begin .readLine) full).1.buffer.length = 65536 ∧
      ((follow (next.begin .readLine) full).1.buffer ++ chunk.bytes).length = 69632 ∧
      (more.filterMap Answer.chunk?).length = 65537 ∧
      (∃ message, (follow (next.begin .readLine) more).2 = .done (some (.error message true))) ∧
      (follow (next.begin .readLine) more).1.Emptied ∧
      Runner.Run (Runner.start p true) moves r ∧ r.session.transport.isOpen = true ∧
      r.session.transport.buffer.length ≤ 65536 := by
  let endpoint : Endpoint := ⟨.v4 ⟨#[10, 0, 0, 1], rfl⟩, 21⟩
  let uses : List Use := [.connect "localhost" 21 .ipv4, .execute [.found [endpoint]],
    .execute [.accepted 0], .readLine]
  let t : Transport := ({ trust := {} } : Transport).after uses
  let next : Transport := { t with queue := [] }
  let stream : Stream := ⟨0, false⟩
  let sent (n : Nat) : List UInt8 := List.replicate n 97
  let answers (n : Nat) : List Answer := (singles (sent n)).map Answer.received
  have size : ∀ n, (sent n).length = n := fun n => List.length_replicate
  have hn : ∀ n, feed ∉ sent n := by
    intro n hm
    exact absurd (List.eq_of_mem_replicate hm) (by decide)
  let chunk : Chunk :=
    ⟨sent chunkSize, List.ne_nil_of_length_pos (by rw [size]; decide), (size chunkSize).le⟩
  have used : t.Used := ⟨_, uses, rfl⟩
  have hnext : t.next? = some (.readLine, next) := by decide +kernel
  have hs : next.stream = some stream := by decide +kernel
  have hb : next.buffer = [] := by decide +kernel
  have hcount : ∀ n, ((answers n).filterMap Answer.chunk?).length = n := by
    intro n
    rw [Answer.filterMap_received, length_singles, size]
  have hfull := (follow_received next _).trans ((read_singles hs hb (hn 65536)).1 (size 65536).le)
  have hover := (follow_received next _).trans
    ((read_singles hs hb (hn 65537)).2 (by rw [size]; decide))
  obtain ⟨bounded, sessions⟩ := store_is_bounded
  obtain ⟨_, _, reads⟩ := bounded t used
  obtain ⟨ends, count⟩ := reads next (answers 65537) hnext
  obtain ⟨p, moves, r, hrun, hopen⟩ := Runner.exists_run_open
  refine ⟨t, next, stream, answers 65536, answers 65537, chunk, p, moves, r, used, hnext, hcount _,
    by rw [hfull], by rw [hfull, size], ?_, hcount _, ⟨_, by rw [hover]⟩, ?_, hrun, hopen,
    (sessions hrun).1⟩
  · rw [hfull, List.length_append, size, size]
    rfl
  · rcases ends with ⟨_, hblocked, _⟩ | ⟨text, hline⟩ | ⟨_, _, emptied⟩
    · exact absurd hblocked (count (hcount 65537).ge _)
    · rw [hover] at hline
      simp at hline
    · exact emptied

end Transport

end FtpControl

import FtpControl.Proofs.Simulation

namespace FtpControl

namespace LineBuffer

/-- What stands before each line feed of a stream. -/
def pieces (stream : List UInt8) : List (List UInt8) :=
  (stream.splitOn feed).dropLast

/-- No run without a line feed is too long to wait in the buffer. -/
def Bounded (stream : List UInt8) : Prop :=
  ∀ run, run <:+: stream → feed ∉ run → run.length ≤ maxLine

/-- These are the first lines of the stream, and the rest of it comes behind them. -/
structure Framed (stream : List UInt8) (lines : List String) (rest : List UInt8) : Prop where
  told : lines = ((pieces stream).take lines.length).map fun bytes =>
    String.ofList (trimEnd (Utf8.decode bytes))
  ahead : stream = ((pieces stream).take lines.length).flatMap (· ++ [feed]) ++ rest

theorem pieces_append_feed {head : List UInt8} (hn : feed ∉ head) (rest : List UInt8) :
    pieces (head ++ feed :: rest) = head :: pieces rest := by
  have hall : ∀ b ∈ head, (b == feed) = false := by
    intro b hb
    have hne : b ≠ feed := fun he => hn (he ▸ hb)
    simpa using hne
  have hsplit : (head ++ feed :: rest).splitOn feed = head :: rest.splitOn feed := by
    simp only [List.splitOn_eq_splitOnP]
    exact List.splitOnP_append_cons_of_forall_mem hall feed (by simp) rest
  have hne : rest.splitOn feed ≠ [] := by
    simp only [List.splitOn_eq_splitOnP]
    exact List.splitOnP_ne_nil _ rest
  rw [pieces, hsplit, List.dropLast_cons_of_ne_nil hne]
  rfl

theorem pieces_of_not_mem {bytes : List UInt8} (hn : feed ∉ bytes) : pieces bytes = [] := by
  have hall : ∀ b ∈ bytes, (b == feed) = false := by
    intro b hb
    have hne : b ≠ feed := fun he => hn (he ▸ hb)
    simpa using hne
  rw [pieces, List.splitOn_eq_splitOnP, List.splitOnP_eq_singleton hall]
  rfl

theorem pieces_flatMap {heads : List (List UInt8)} (hn : ∀ head ∈ heads, feed ∉ head)
    (rest : List UInt8) :
    pieces (heads.flatMap (· ++ [feed]) ++ rest) = heads ++ pieces rest := by
  induction heads with
  | nil => rfl
  | cons head heads ih =>
    have hhead := hn head List.mem_cons_self
    have hheads := ih fun other ho => hn other (List.mem_cons_of_mem _ ho)
    have hsplit : (head :: heads).flatMap (· ++ [feed]) ++ rest =
        head ++ feed :: (heads.flatMap (· ++ [feed]) ++ rest) := by simp
    rw [hsplit, pieces_append_feed hhead, hheads]
    rfl

/-- Every stream is a row of ended lines with a line behind them that has no end yet. -/
theorem exists_cut (stream : List UInt8) :
    ∃ (heads : List (List UInt8)) (rest : List UInt8),
      stream = heads.flatMap (· ++ [feed]) ++ rest ∧ (∀ head ∈ heads, feed ∉ head) ∧ feed ∉ rest := by
  induction stream with
  | nil => exact ⟨[], [], rfl, by simp, by simp⟩
  | cons b stream ih =>
    obtain ⟨heads, rest, he, hn, hr⟩ := ih
    by_cases hb : b = feed
    · refine ⟨[] :: heads, rest, ?_, ?_, hr⟩
      · simp [hb, he]
      · intro head hh
        rcases List.mem_cons.mp hh with rfl | hh
        · simp
        · exact hn head hh
    · have hb' : feed ≠ b := fun h => hb h.symm
      cases heads with
      | nil =>
        refine ⟨[], b :: rest, ?_, by simp, ?_⟩
        · simp [he]
        · simp [hb', hr]
      | cons head heads =>
        refine ⟨(b :: head) :: heads, rest, ?_, ?_, hr⟩
        · simp [he]
        · intro other ho
          rcases List.mem_cons.mp ho with rfl | ho
          · have hhead := hn head List.mem_cons_self
            simp [hb', hhead]
          · exact hn other (List.mem_cons_of_mem _ ho)

theorem not_mem_of_mem_pieces {stream head : List UInt8} (h : head ∈ pieces stream) : feed ∉ head := by
  obtain ⟨heads, rest, rfl, hn, hr⟩ := exists_cut stream
  rw [pieces_flatMap hn, pieces_of_not_mem hr, List.append_nil] at h
  exact hn head h

theorem framed_iff {stream rest : List UInt8} {lines : List String} :
    Framed stream lines rest ↔ ∃ heads : List (List UInt8), (∀ head ∈ heads, feed ∉ head) ∧
      stream = heads.flatMap (· ++ [feed]) ++ rest ∧ lines = heads.map text := by
  constructor
  · intro h
    refine ⟨(pieces stream).take lines.length, ?_, h.ahead, h.told⟩
    intro head hh
    exact not_mem_of_mem_pieces (List.mem_of_mem_take hh)
  · rintro ⟨heads, hn, rfl, rfl⟩
    have hfirst : (pieces (heads.flatMap (· ++ [feed]) ++ rest)).take (heads.map text).length = heads := by
      rw [pieces_flatMap hn, List.length_map]
      exact List.take_left
    refine ⟨?_, by rw [hfirst]⟩
    rw [hfirst]
    rfl

theorem Framed.append {stream rest : List UInt8} {lines : List String} (h : Framed stream lines rest)
    (more : List UInt8) : Framed (stream ++ more) lines (rest ++ more) := by
  obtain ⟨heads, hn, rfl, rfl⟩ := framed_iff.mp h
  exact framed_iff.mpr ⟨heads, hn, by simp, rfl⟩

theorem Framed.line {stream head rest : List UInt8} {lines : List String}
    (h : Framed stream lines (head ++ feed :: rest)) (hn : feed ∉ head) :
    Framed stream (lines ++ [text head]) rest := by
  obtain ⟨heads, hheads, rfl, rfl⟩ := framed_iff.mp h
  refine framed_iff.mpr ⟨heads ++ [head], ?_, by simp, by simp⟩
  intro other ho
  rcases List.mem_append.mp ho with ho | ho
  · exact hheads other ho
  · rw [List.mem_singleton.mp ho]
    exact hn

theorem Framed.complete {stream rest : List UInt8} {lines : List String}
    (h : Framed stream lines rest) (hn : feed ∉ rest) : lines = (pieces stream).map text := by
  obtain ⟨heads, hheads, rfl, rfl⟩ := framed_iff.mp h
  rw [pieces_flatMap hheads, pieces_of_not_mem hn, List.append_nil]

theorem Bounded.of_append {stream more : List UInt8} (h : Bounded (stream ++ more)) : Bounded stream :=
  fun run hr => h run (hr.trans (List.prefix_append _ _).isInfix)

/-- A run without a line feed lies on one side of any line feed. -/
theorem infix_of_not_mem {run head rest : List UInt8} (h : run <:+: head ++ feed :: rest)
    (hn : feed ∉ run) : run <:+: head ∨ run <:+: rest := by
  obtain ⟨before, after, he⟩ := h
  rcases List.append_eq_append_iff.mp he with ⟨more, hhead, _⟩ | ⟨more, hrun, hrest⟩
  · exact Or.inl ⟨before, more, hhead.symm⟩
  · cases more with
    | nil => exact Or.inl ⟨before, [], by simpa using hrun⟩
    | cons b more =>
      obtain ⟨rfl, rfl⟩ := List.cons.inj hrest
      rcases List.append_eq_append_iff.mp hrun with ⟨inner, _, hinner⟩ | ⟨inner, _, hinner⟩
      · exact absurd (by simp [hinner]) hn
      · cases inner with
        | nil =>
          have hrun' : feed :: more = run := hinner
          exact absurd (hrun' ▸ List.mem_cons_self) hn
        | cons b inner =>
          obtain ⟨_, rfl⟩ := List.cons.inj hinner
          exact Or.inr ⟨inner, after, rfl⟩

theorem bounded_of_short {heads : List (List UInt8)} {rest : List UInt8}
    (hheads : ∀ head ∈ heads, head.length ≤ maxLine) (hrest : rest.length ≤ maxLine) :
    Bounded (heads.flatMap (· ++ [feed]) ++ rest) := by
  induction heads with
  | nil => exact fun run hr _ => hr.length_le.trans hrest
  | cons head heads ih =>
    intro run hr hn
    have hsplit : (head :: heads).flatMap (· ++ [feed]) ++ rest =
        head ++ feed :: (heads.flatMap (· ++ [feed]) ++ rest) := by simp
    rw [hsplit] at hr
    rcases infix_of_not_mem hr hn with hr | hr
    · exact hr.length_le.trans (hheads head List.mem_cons_self)
    · exact ih (fun other ho => hheads other (List.mem_cons_of_mem _ ho)) run hr hn

theorem Framed.short {stream rest : List UInt8} {lines : List String} (h : Framed stream lines rest)
    (bounded : Bounded stream) (hn : feed ∉ rest) : rest.length ≤ maxLine := by
  refine bounded rest ?_ hn
  rw [h.ahead]
  exact (List.suffix_append _ _).isInfix

def joined (chunks : List Chunk) : List UInt8 :=
  chunks.flatMap Chunk.bytes

end LineBuffer

open LineBuffer

def Progress.told : Progress → List Notice
  | .done notice => notice.toList
  | .blocked _ => []

def Progress.wait? : Progress → Option Wait
  | .done _ => none
  | .blocked wait => some wait

namespace Transport

/-- One read after another from the same connection: the chunks that have come, what has been told
of the reads, and the wait of the last one. A read may be given up while it waits. -/
inductive Reading (t : Transport) : List Chunk → List Notice → Transport → Option Wait → Prop
  | start : Reading t [] [] t none
  | issue {came told now later progress} : Reading t came told now none →
      now.begin .readLine = (later, progress) →
      Reading t came (told ++ progress.told) later progress.wait?
  | arrive {came told now wait chunk later progress} : Reading t came told now (some wait) →
      now.resume wait (.received chunk) = some (later, progress) →
      Reading t (came ++ [chunk]) (told ++ progress.told) later progress.wait?
  | giveUp {came told now wait} : Reading t came told now (some wait) → Reading t came told now none

/-- A read hands out the first line of the buffer, or it waits because there is none. -/
theorem readOn_cases {t : Transport} {stream : Stream} (hs : t.stream = some stream)
    (short : feed ∉ t.buffer → t.buffer.length ≤ maxLine) :
    (∃ head rest, feed ∉ head ∧ t.buffer = head ++ feed :: rest ∧
      t.readOn = { t with buffer := rest }.finish (.line (text head))) ∨
    feed ∉ t.buffer ∧ t.readOn = (t, .blocked (.receive stream)) := by
  unfold readOn
  cases hl : takeLine? t.buffer with
  | some found =>
    obtain ⟨line, rest⟩ := found
    obtain ⟨head, hsplit, hn, rfl⟩ := takeLine?_eq_some hl
    exact Or.inl ⟨head, rest, hn, hsplit, rfl⟩
  | none =>
    have hn := takeLine?_eq_none hl
    have hlong : ¬ maxLine < t.buffer.length := Nat.not_lt.mpr (short hn)
    refine Or.inr ⟨hn, ?_⟩
    simp only [hlong, ↓reduceIte, hs]

/-- Where the reads from a stream have come. -/
structure ReadTo (stream : Stream) (bytes : List UInt8) (told : List Notice) (now : Transport)
    (wait : Option Wait) : Prop where
  kept : now.stream = some stream
  lines : ∃ lines, told = lines.map Notice.line ∧ Framed bytes lines now.buffer
  wait : wait = none ∨ wait = some (.receive stream) ∧ feed ∉ now.buffer

theorem readTo_readOn {now later : Transport} {progress : Progress} {stream : Stream}
    {bytes : List UInt8} {lines : List String} (hs : now.stream = some stream)
    (bounded : Bounded bytes) (framed : Framed bytes lines now.buffer)
    (h : now.readOn = (later, progress)) :
    ReadTo stream bytes (lines.map Notice.line ++ progress.told) later progress.wait? := by
  rcases readOn_cases hs (framed.short bounded) with ⟨head, rest, hn, hsplit, hread⟩ | ⟨hn, hread⟩
  · rw [hsplit] at framed
    obtain ⟨rfl, rfl⟩ := Prod.mk.inj (hread.symm.trans h)
    refine ⟨hs, ⟨lines ++ [text head], ?_, framed.line hn⟩, Or.inl rfl⟩
    simp [Progress.told]
  · obtain ⟨rfl, rfl⟩ := Prod.mk.inj (hread.symm.trans h)
    refine ⟨hs, ⟨lines, ?_, framed⟩, Or.inr ⟨rfl, hn⟩⟩
    simp [Progress.told]

variable {t now : Transport} {stream : Stream} {came : List Chunk} {told : List Notice}
  {wait : Option Wait}

theorem Reading.readTo (hs : t.stream = some stream) (hb : t.buffer = [])
    (reading : t.Reading came told now wait) (bounded : Bounded (joined came)) :
    ReadTo stream (joined came) told now wait := by
  induction reading with
  | start =>
    refine ⟨hs, ⟨[], rfl, ?_⟩, Or.inl rfl⟩
    rw [hb]
    exact ⟨rfl, rfl⟩
  | issue _ h ih =>
    obtain ⟨hstream, ⟨lines, rfl, framed⟩, _⟩ := ih bounded
    exact readTo_readOn hstream bounded framed h
  | @arrive came told now wait chunk later progress _ h ih =>
    have hjoined : joined (came ++ [chunk]) = joined came ++ chunk.bytes := by simp [joined]
    rw [hjoined] at bounded ⊢
    obtain ⟨hstream, ⟨lines, rfl, framed⟩, hwait⟩ := ih bounded.of_append
    have hreceive : wait = .receive stream := by
      rcases hwait with hwait | ⟨hwait, _⟩
      · simp at hwait
      · exact Option.some.inj hwait
    subst hreceive
    have hread : ({ now with buffer := now.buffer ++ chunk.bytes } : Transport).readOn =
        (later, progress) := Option.some.inj h
    refine readTo_readOn ?_ bounded ?_ hread
    · exact hstream
    · exact framed.append chunk.bytes
  | giveUp _ ih =>
    obtain ⟨hstream, lines, _⟩ := ih bounded
    exact ⟨hstream, lines, Or.inl rfl⟩

/-- Reads that are issued again and again get to where they have to wait. -/
theorem Reading.goes_on (hs : t.stream = some stream) (hb : t.buffer = [])
    (bounded : Bounded (joined came)) (reading : t.Reading came told now none) :
    ∃ more later, t.Reading came (told ++ more) later (some (.receive stream)) := by
  induction hlen : now.buffer.length using Nat.strong_induction_on generalizing now told with
  | _ n ih =>
    obtain ⟨hstream, ⟨lines, rfl, framed⟩, _⟩ := reading.readTo hs hb bounded
    rcases readOn_cases hstream (framed.short bounded) with ⟨head, rest, hn, hsplit, hread⟩ | ⟨hn, hread⟩
    · have hissue := reading.issue hread
      have hshorter : rest.length < n := by
        rw [← hlen, hsplit, List.length_append, List.length_cons]
        omega
      obtain ⟨more, later, hmore⟩ := ih rest.length hshorter hissue rfl
      refine ⟨.line (text head) :: more, later, ?_⟩
      simpa [finish, Progress.told] using hmore
    · exact ⟨_, _, reading.issue hread⟩

end Transport

namespace Deed

def came (deeds : List Deed) : List UInt8 :=
  deeds.flatMap fun d =>
    match d with
    | .received _ bytes => bytes
    | _ => []

def lines (deeds : List Deed) : List String :=
  deeds.filterMap fun d =>
    match d with
    | .heard _ _ line => some line
    | _ => none

end Deed

theorem Wire.Runs.framed {p : Profile} {deeds : List Deed} {link : Link}
    (runs : Wire.Runs p deeds (.live link)) :
    Framed (Deed.came (Deed.latest deeds)) (Deed.lines (Deed.latest deeds)) link.unread := by
  generalize hw : Wire.live link = w at runs
  induction runs generalizing link with
  | start => simp at hw
  | @next deeds w w' d runs hs ih =>
    subst hw
    have quiet : (∀ c, d ≠ .opened c) → (∀ stream bytes, d ≠ .received stream bytes) →
        (∀ stage bytes line, d ≠ .heard stage bytes line) →
        Deed.came (Deed.latest (deeds ++ [d])) = Deed.came (Deed.latest deeds) ∧
          Deed.lines (Deed.latest (deeds ++ [d])) = Deed.lines (Deed.latest deeds) := by
      intro ho hr hh
      rw [Deed.latest_append deeds ho]
      cases d with
      | received stream bytes => exact absurd rfl (hr stream bytes)
      | heard stage bytes line => exact absurd rfl (hh stage bytes line)
      | _ => simp [Deed.came, Deed.lines]
    generalize hv : Wire.live link = v at hs
    cases hs with
    | opened w c =>
      cases hv
      rw [Deed.latest_append_opened]
      exact ⟨rfl, rfl⟩
    | began _ _ | wrote _ | secured _ _ =>
      cases hv
      obtain ⟨hcame, hlines⟩ := quiet (by simp) (by simp) (by simp)
      rw [hcame, hlines]
      have hlink := ih rfl
      exact hlink
    | @received link bytes _ _ =>
      cases hv
      have hcame : Deed.came (Deed.latest (deeds ++ [.received link.stream bytes])) =
          Deed.came (Deed.latest deeds) ++ bytes := by
        rw [Deed.latest_append deeds (by simp)]
        simp [Deed.came]
      have hlines : Deed.lines (Deed.latest (deeds ++ [.received link.stream bytes])) =
          Deed.lines (Deed.latest deeds) := by
        rw [Deed.latest_append deeds (by simp)]
        simp [Deed.lines]
      rw [hcame, hlines]
      exact (ih rfl).append bytes
    | @heard link line rest _ _ hl =>
      obtain ⟨standing, _, rfl⟩ := Link.of_move_live hv.symm
      obtain ⟨head, hsplit, hn, rfl⟩ := takeLine?_eq_some hl
      have hbefore := ih rfl
      rw [hsplit] at hbefore
      rw [Deed.latest_append deeds (by simp)]
      simpa [Deed.came, Deed.lines] using hbefore.line hn
    | unsecured _ _ => simp at hv

theorem Runner.Matches.live {p : Profile} {r : Runner} {w : Wire} (matched : r.Matches p w)
    (hopen : r.session.transport.isOpen = true) :
    ∃ link, w = .live link ∧ r.session.transport.stream = some link.stream ∧
      r.session.transport.buffer = link.unread := by
  obtain ⟨s, phase⟩ := r
  obtain ⟨_, matched⟩ := matched
  have vacant : s.transport.stream ≠ none := by
    simpa [Transport.isOpen, Option.isSome_iff_ne_none] using hopen
  have rests : ∀ {ops}, s.Rests w ops → ∃ link, w = .live link ∧
      s.transport.stream = some link.stream ∧ s.transport.buffer = link.unread := by
    intro ops h
    cases h with
    | closed _ closed => exact absurd closed.vacant.stream vacant
    | resolving _ dialling _ | dialling _ dialling _ => exact absurd dialling.vacant.stream vacant
    | shaking uses _ _ | sending uses _ | reading uses _ | ready uses _ _ =>
      exact ⟨_, rfl, uses.carries.stream, uses.carries.buffer⟩
  cases phase with
  | head => exact rests matched
  | idle => exact absurd matched.1.vacant.stream vacant
  | «over» => exact absurd matched vacant
  | ready op watch =>
    cases watch with
    | false => exact rests matched
    | true =>
      obtain ⟨_, link, hl, reads⟩ := matched
      exact ⟨link, hl, reads.uses.carries.stream, reads.uses.carries.buffer⟩
  | waiting wait watch =>
    dsimp only at matched
    generalize s.transport.queue = queue at matched
    cases matched with
    | lookup _ _ _ dialling _ | dial _ _ dialling => exact absurd dialling.vacant.stream vacant
    | negotiate _ _ _ hs _ _ _ _ => exact absurd hs vacant
    | transmit _ carries _ => exact ⟨_, rfl, carries.stream, carries.buffer⟩
    | receive reads => exact ⟨_, rfl, reads.uses.carries.stream, reads.uses.carries.buffer⟩

theorem LineBuffer.Framed.isPrefix {stream rest rest' : List UInt8} {lines lines' : List String}
    (h : Framed stream lines rest) (h' : Framed stream lines' rest')
    (hle : lines.length ≤ lines'.length) : lines <+: lines' := by
  rw [h.told, h'.told]
  exact (List.take_prefix_take_left hle).map _

/-- Whoever reads from a stream is given its lines in order, each of them once, and what is in store
with what is still to come is the rest of the stream. How the bytes were cut into chunks and which
reads were given up makes no difference. The same holds of all that a session reads in a run. -/
theorem lines_in_order :
    (∀ {t now : Transport} {stream : Stream} {came : List Chunk} {told : List Notice}
        {wait : Option Wait} {ahead : List UInt8},
      t.stream = some stream → t.buffer = [] → t.Reading came told now wait →
      Bounded (joined came ++ ahead) →
      (∃ lines, told = lines.map Notice.line ∧
        Framed (joined came ++ ahead) lines (now.buffer ++ ahead) ∧
        (wait ≠ none → lines = (pieces (joined came)).map fun bytes =>
          String.ofList (trimEnd (Utf8.decode bytes)))) ∧
      (wait = none → ∃ more later, t.Reading came (told ++ more) later (some (.receive stream))) ∧
      ∀ {t' now' : Transport} {stream' : Stream} {came' : List Chunk} {told' : List Notice}
          {wait' : Option Wait} {ahead' : List UInt8},
        t'.stream = some stream' → t'.buffer = [] → t'.Reading came' told' now' wait' →
        joined came' ++ ahead' = joined came ++ ahead → told.length ≤ told'.length →
        told <+: told') ∧
    ∀ {p : Profile} {hasRoots : Bool} {moves : List Runner.Move} {r : Runner},
      Runner.Run (Runner.start p hasRoots) moves r → r.session.transport.isOpen = true →
      Framed (Deed.came (Deed.latest (Runner.deeds moves)))
        (Deed.lines (Deed.latest (Runner.deeds moves))) r.session.transport.buffer ∧
      (Bounded (Deed.came (Deed.latest (Runner.deeds moves))) →
        (∃ head rest, feed ∉ head ∧ r.session.transport.buffer = head ++ feed :: rest ∧
          r.session.transport.readOn =
            { r.session.transport with buffer := rest }.finish
              (.line (String.ofList (trimEnd (Utf8.decode head))))) ∨
        feed ∉ r.session.transport.buffer ∧ ∃ stream,
          r.session.transport.readOn = (r.session.transport, .blocked (.receive stream))) := by
  refine ⟨?_, ?_⟩
  · intro t now stream came told wait ahead hs hb reading bounded
    obtain ⟨_, ⟨lines, rfl, framed⟩, hwait⟩ := reading.readTo hs hb bounded.of_append
    refine ⟨⟨lines, rfl, framed.append ahead, ?_⟩, ?_, ?_⟩
    · intro hw
      rcases hwait with hnone | ⟨_, hn⟩
      · exact absurd hnone hw
      · exact framed.complete hn
    · rintro rfl
      exact reading.goes_on hs hb bounded.of_append
    · intro t' now' stream' came' told' wait' ahead' hs' hb' reading' he hle
      rw [← he] at bounded
      obtain ⟨_, ⟨lines', rfl, framed'⟩, _⟩ := reading'.readTo hs' hb' bounded.of_append
      have hother := framed'.append ahead'
      rw [he] at hother
      rw [List.length_map, List.length_map] at hle
      exact ((framed.append ahead).isPrefix hother hle).map Notice.line
  · intro p hasRoots moves r run hopen
    obtain ⟨w, runs, matched⟩ := Runner.run_matches run
    obtain ⟨link, rfl, hstream, hbuffer⟩ := matched.live hopen
    have framed := runs.framed
    rw [← hbuffer] at framed
    refine ⟨framed, fun bounded => ?_⟩
    rcases Transport.readOn_cases hstream (framed.short bounded) with hline | ⟨hn, hread⟩
    · exact Or.inl hline
    · exact Or.inr ⟨hn, link.stream, hread⟩

theorem lines_of_cut_chunks :
    ∃ (t now : Transport) (stream : Stream) (came : List Chunk) (wait : Option Wait) (p : Profile)
      (moves : List Runner.Move) (r : Runner),
      t.stream = some stream ∧ t.buffer = [] ∧ Bounded (joined came) ∧
      t.Reading came [.line "220-Hé\uFFFD"] now wait ∧ wait ≠ none ∧ now.buffer = [50, 50] ∧
      (["220-Hé\uFFFD"] = (pieces (joined came)).map fun bytes => String.ofList (trimEnd (Utf8.decode bytes))) ∧
      Runner.Run (Runner.start p true) moves r ∧ r.session.transport.isOpen = true ∧
      Deed.lines (Deed.latest (Runner.deeds moves)) = ["220 Ready"] ∧
      Framed (Deed.came (Deed.latest (Runner.deeds moves)))
        (Deed.lines (Deed.latest (Runner.deeds moves))) r.session.transport.buffer := by
  let stream : Stream := ⟨0, false⟩
  let held (buffer : List UInt8) : Transport := { trust := {}, stream := some stream, buffer }
  -- The first chunk ends within a character; the read that waits for more is given up. The second goes on
  -- with a byte of no character.
  let first : Chunk := ⟨[50, 50, 48, 45, 72, 0xC3], by decide, by decide⟩
  let second : Chunk := ⟨[0xA9, 0xFF, 13, 10, 50, 50], by decide, by decide⟩
  have waits : ∀ buffer, feed ∉ buffer → buffer.length ≤ maxLine →
      (held buffer).begin .readLine = (held buffer, .blocked (.receive stream)) := by
    intro buffer hn hle
    rcases Transport.readOn_cases (t := held buffer) rfl fun _ => hle with ⟨_, _, _, hs, _⟩ | ⟨_, hr⟩
    · exact absurd (by rw [show buffer = _ from hs]; simp) hn
    · exact hr
  have arrived : (held []).resume (.receive stream) (.received first) =
      some (held first.bytes, .blocked (.receive stream)) :=
    congrArg some (waits first.bytes (by decide) (by decide))
  have begun : (held []).Reading [first] [] (held first.bytes) none :=
    ((Transport.Reading.start.issue (waits [] (by decide) (by decide))).arrive arrived).giveUp
  have ended : (held first.bytes).resume (.receive stream) (.received second) =
      some (held [50, 50], .done (some (.line "220-Hé\uFFFD"))) := by decide +kernel
  have reading : (held []).Reading [first, second] [.line "220-Hé\uFFFD"] (held [50, 50])
      (some (.receive stream)) :=
    ((begun.issue (waits first.bytes (by decide) (by decide))).arrive ended).issue
      (waits [50, 50] (by decide) (by decide))
  have bounded : Bounded (joined [first, second]) := @bounded_of_short [] _ (by simp) (by decide)
  have ahead : Bounded (joined [first, second] ++ []) := by rwa [List.append_nil]
  obtain ⟨lines, hlines, _, hall⟩ := (lines_in_order.1 rfl rfl reading ahead).1
  have hpieces := hall (by simp)
  obtain rfl : lines = ["220-Hé\uFFFD"] := by
    cases lines with
    | nil => simp at hlines
    | cons line lines => simpa using hlines.symm
  let p : Profile :=
    { host := "localhost", username := "user", password := "secret", authTls := false }
  let inputs := Runner.Input.welcomed 0 "220 Ready\r\n"
  have h : (Runner.rehearse p inputs).map (fun x => (x.2.session.transport.isOpen,
      Deed.lines (Deed.latest (Runner.deeds x.1)))) = some (true, ["220 Ready"]) := by decide +kernel
  obtain ⟨⟨moves, r⟩, hplay, hr⟩ := Option.map_eq_some_iff.mp h
  obtain ⟨hopen, heard⟩ := Prod.mk.inj hr
  have run := Runner.run_of_play hplay
  exact ⟨held [], held [50, 50], stream, _, _, p, moves, r, rfl, rfl, bounded, reading, by simp, rfl,
    hpieces, run, hopen, heard, (lines_in_order.2 run hopen).1⟩

end FtpControl

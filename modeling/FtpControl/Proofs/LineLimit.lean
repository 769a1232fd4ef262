import FtpControl.Proofs.Framing

namespace FtpControl

namespace LineBuffer

/-- Before the first of these chunks, or at the end of one, too many bytes wait for a line feed. -/
def Overrun (buffer : List UInt8) (chunks : List Chunk) : Prop :=
  ∃ early, early <+: chunks ∧ feed ∉ buffer ++ joined early ∧
    maxLine < (buffer ++ joined early).length

def singles (bytes : List UInt8) : List Chunk :=
  bytes.map fun b => ⟨[b], List.cons_ne_nil b [], Nat.succ_le_of_lt (by decide : 0 < chunkSize)⟩

theorem joined_append (chunks more : List Chunk) : joined (chunks ++ more) = joined chunks ++ joined more :=
  List.flatMap_append

theorem joined_singles (bytes : List UInt8) : joined (singles bytes) = bytes := by
  induction bytes with
  | nil => rfl
  | cons b bytes ih => exact congrArg (b :: ·) ih

theorem joined_isPrefix {early chunks : List Chunk} (h : early <+: chunks) : joined early <+: joined chunks := by
  obtain ⟨later, rfl⟩ := h
  rw [joined_append]
  exact List.prefix_append _ _

theorem overrun_nil {buffer : List UInt8} :
    Overrun buffer [] ↔ feed ∉ buffer ∧ maxLine < buffer.length := by
  have hnone : buffer ++ joined [] = buffer := List.append_nil _
  constructor
  · rintro ⟨early, he, hn, hlong⟩
    rw [List.prefix_nil.mp he, hnone] at hn hlong
    exact ⟨hn, hlong⟩
  · rintro ⟨hn, hlong⟩
    exact ⟨[], List.prefix_rfl, by rwa [hnone], by rwa [hnone]⟩

theorem overrun_concat {buffer : List UInt8} {chunks : List Chunk} {chunk : Chunk} :
    Overrun buffer (chunks ++ [chunk]) ↔ Overrun buffer chunks ∨
      feed ∉ buffer ++ joined (chunks ++ [chunk]) ∧
        maxLine < (buffer ++ joined (chunks ++ [chunk])).length := by
  constructor
  · rintro ⟨early, he, hn, hlong⟩
    rcases List.prefix_concat_iff.mp he with rfl | he
    · exact Or.inr ⟨hn, hlong⟩
    · exact Or.inl ⟨early, he, hn, hlong⟩
  · rintro (⟨early, he, hn, hlong⟩ | ⟨hn, hlong⟩)
    · exact ⟨early, he.trans (List.prefix_append _ _), hn, hlong⟩
    · exact ⟨_, List.prefix_rfl, hn, hlong⟩

theorem length_le_of_prefix {bytes head rest : List UInt8} (hp : bytes <+: head ++ feed :: rest)
    (hn : feed ∉ bytes) : bytes.length ≤ head.length := by
  obtain ⟨tail, ht⟩ := hp
  rcases List.append_eq_append_iff.mp ht with ⟨more, rfl, _⟩ | ⟨more, rfl, hmore⟩
  · rw [List.length_append]
    omega
  · cases more with
    | nil => simp
    | cons b more =>
      obtain ⟨rfl, _⟩ := List.cons.inj hmore
      exact absurd (List.mem_append_right _ List.mem_cons_self) hn

theorem first_line_eq {head head' rest rest' : List UInt8} (hn : feed ∉ head) (hn' : feed ∉ head')
    (h : head ++ feed :: rest = head' ++ feed :: rest') : head = head' ∧ rest = rest' := by
  have hpieces := congrArg pieces h
  rw [pieces_append_feed hn, pieces_append_feed hn'] at hpieces
  obtain ⟨rfl, _⟩ := List.cons.inj hpieces
  exact ⟨rfl, by simpa using h⟩

variable {buffer head rest : List UInt8} {chunks : List Chunk}

/-- A line that fits in is never too long, however it comes. -/
theorem not_overrun (h : buffer ++ joined chunks = head ++ feed :: rest)
    (fits : head.length ≤ maxLine) : ¬Overrun buffer chunks := by
  rintro ⟨early, he, hn, hlong⟩
  have hp : buffer ++ joined early <+: head ++ feed :: rest := by
    rw [← h]
    exact (List.prefix_append_right_inj buffer).mpr (joined_isPrefix he)
  have hle := length_le_of_prefix hp hn
  omega

/-- A line that is longer by a whole chunk is always too long: some chunk ends behind the limit and
before the line does. -/
theorem overrun_of_long (short : buffer.length ≤ maxLine)
    (h : buffer ++ joined chunks = head ++ feed :: rest) (hn : feed ∉ head)
    (long : maxLine + chunkSize ≤ head.length) : Overrun buffer chunks := by
  induction chunks generalizing buffer with
  | nil =>
    have hlen := congrArg List.length h
    simp only [joined, List.flatMap_nil, List.append_nil, List.length_append, List.length_cons] at hlen
    omega
  | cons chunk chunks ih =>
    have hsplit : buffer ++ joined (chunk :: chunks) = buffer ++ chunk.bytes ++ joined chunks := by
      simp [joined]
    rw [hsplit] at h
    by_cases hnext : (buffer ++ chunk.bytes).length ≤ maxLine
    · obtain ⟨early, he, hfree, hlong⟩ := ih hnext h
      refine ⟨chunk :: early, List.cons_prefix_cons.mpr ⟨rfl, he⟩, ?_, ?_⟩
      · simpa [joined] using hfree
      · simpa [joined, Nat.add_assoc] using hlong
    · have hbounded := chunk.bounded
      have hlen : (buffer ++ chunk.bytes).length ≤ head.length := by
        rw [List.length_append]
        omega
      have hp : buffer ++ chunk.bytes <+: head :=
        List.prefix_of_prefix_length_le ⟨joined chunks, h⟩ (List.prefix_append _ _) hlen
      refine ⟨[chunk], List.cons_prefix_cons.mpr ⟨rfl, List.nil_prefix⟩, ?_, ?_⟩
      · intro hm
        exact hn (hp.subset (by simpa [joined] using hm))
      · simpa [joined] using hnext

theorem exists_cuts (hn : feed ∉ head) (long : maxLine < head.length)
    (near : head.length < maxLine + chunkSize) :
    (∃ chunks, joined chunks = head ++ [feed] ∧ ¬Overrun [] chunks) ∧
      ∃ chunks, joined chunks = head ++ [feed] ∧ Overrun [] chunks := by
  have hfree : feed ∉ [] ++ joined (singles head) := by
    rwa [List.nil_append, joined_singles]
  refine ⟨?_, singles (head ++ [feed]), joined_singles _, singles head, ?_, hfree, ?_⟩
  · -- All that is above the limit comes in the last chunk, with the line feed.
    have hlast : (head.drop maxLine ++ [feed]).length ≤ chunkSize := by
      rw [List.length_append, List.length_drop, List.length_singleton]
      omega
    let last : Chunk := ⟨head.drop maxLine ++ [feed], by simp, hlast⟩
    have hjoined : joined (singles (head.take maxLine) ++ [last]) = head ++ [feed] := by
      rw [joined_append, joined_singles]
      simp [joined, last, ← List.append_assoc]
    refine ⟨singles (head.take maxLine) ++ [last], hjoined, fun overrun => ?_⟩
    rcases overrun_concat.mp overrun with ⟨early, he, _, hlong⟩ | ⟨hfree, _⟩
    · have hle := (joined_isPrefix he).length_le
      rw [joined_singles, List.length_take] at hle
      rw [List.nil_append] at hlong
      omega
    · rw [hjoined] at hfree
      simp at hfree
  · have hsplit : singles (head ++ [feed]) = singles head ++ singles [feed] := List.map_append
    rw [hsplit]
    exact List.prefix_append _ _
  · rwa [List.nil_append, joined_singles]

end LineBuffer

open LineBuffer

namespace Transport

def overlong : Notice :=
  .error "Line exceeds 65536 bytes." true

def goOn : Transport × Progress → Chunk → Transport × Progress
  | (t, .blocked wait), chunk => (t.resume wait (.received chunk)).getD (t, .blocked wait)
  | (t, .done notice), _ => (t, .done notice)

/-- A read that is given these chunks one after the other, as far as it asks for them. -/
def read (t : Transport) (chunks : List Chunk) : Transport × Progress :=
  chunks.foldl goOn (t.begin .readLine)

variable {t now : Transport} {stream : Stream}

/-- A read hands out the first line of the buffer, or gives up because there is too much without one, or
waits because there is none. -/
theorem readOn_outcome (hs : t.stream = some stream) :
    (∃ head rest, feed ∉ head ∧ t.buffer = head ++ feed :: rest ∧
      t.readOn = { t with buffer := rest }.finish (.line (text head))) ∨
    (feed ∉ t.buffer ∧ maxLine < t.buffer.length ∧ t.readOn = t.disconnect.finish overlong) ∨
    feed ∉ t.buffer ∧ t.buffer.length ≤ maxLine ∧ t.readOn = (t, .blocked (.receive stream)) := by
  by_cases long : feed ∉ t.buffer ∧ maxLine < t.buffer.length
  · refine Or.inr (Or.inl ⟨long.1, long.2, ?_⟩)
    unfold readOn
    split
    next line rest hl =>
      obtain ⟨head, hsplit, _, _⟩ := takeLine?_eq_some hl
      exact absurd (by rw [hsplit]; simp) long.1
    next =>
      rw [if_pos long.2]
      rfl
  · have short : feed ∉ t.buffer → t.buffer.length ≤ maxLine := fun hn =>
      Nat.not_lt.mp fun hlong => long ⟨hn, hlong⟩
    rcases readOn_cases hs short with hline | ⟨hn, hread⟩
    · exact Or.inl hline
    · exact Or.inr (Or.inr ⟨hn, short hn, hread⟩)

theorem read_concat (t : Transport) (chunks : List Chunk) (chunk : Chunk) :
    t.read (chunks ++ [chunk]) = goOn (t.read chunks) chunk := by
  simp [read, List.foldl_append]

theorem read_outcome (hs : t.stream = some stream) (chunks : List Chunk) :
    (Overrun t.buffer chunks ∧ t.read chunks = t.disconnect.finish overlong) ∨
    (¬Overrun t.buffer chunks ∧ feed ∉ t.buffer ++ joined chunks ∧
      t.read chunks = ({ t with buffer := t.buffer ++ joined chunks }, .blocked (.receive stream))) ∨
    ¬Overrun t.buffer chunks ∧ ∃ head kept used unused, chunks = used ++ unused ∧ feed ∉ head ∧
      t.buffer ++ joined used = head ++ feed :: kept ∧
      t.read chunks = { t with buffer := kept }.finish (.line (text head)) := by
  induction chunks using List.reverseRecOn with
  | nil =>
    have hnone : t.buffer ++ joined [] = t.buffer := List.append_nil _
    rw [overrun_nil, hnone]
    rcases readOn_outcome hs with ⟨head, rest, hn, hsplit, hread⟩ | ⟨hn, hlong, hread⟩ | ⟨hn, hle, hread⟩
    · refine Or.inr (Or.inr ⟨fun h => h.1 ?_, head, rest, [], [], rfl, hn, ?_, hread⟩)
      · rw [hsplit]
        simp
      · rw [hnone, hsplit]
    · exact Or.inl ⟨⟨hn, hlong⟩, hread⟩
    · exact Or.inr (Or.inl ⟨fun h => absurd hle (Nat.not_le.mpr h.2), hn, hread⟩)
  | append_singleton chunks chunk ih =>
    rw [read_concat, overrun_concat]
    rcases ih with ⟨overrun, hread⟩ | ⟨clear, hn, hread⟩ | ⟨clear, head, kept, used, unused, rfl, hn, hsplit, hread⟩
    · exact Or.inl ⟨Or.inl overrun, by rw [hread]; rfl⟩
    · -- The read goes on with all that has come in the buffer.
      let more : Transport := { t with buffer := t.buffer ++ joined (chunks ++ [chunk]) }
      have hmore : goOn (t.read chunks) chunk = more.readOn := by
        rw [hread]
        change ({ t with buffer := t.buffer ++ joined chunks ++ chunk.bytes } : Transport).readOn = _
        simp [more, joined]
      rw [hmore]
      rcases readOn_outcome (t := more) hs with ⟨head, rest, hh, hsplit, hr⟩ | ⟨hfree, hlong, hr⟩ | ⟨hfree, hle, hr⟩
      · refine Or.inr (Or.inr ⟨?_, head, rest, _, [], (List.append_nil _).symm, hh, hsplit, hr⟩)
        rintro (overrun | ⟨hfree, _⟩)
        · exact clear overrun
        · refine hfree ?_
          change feed ∈ more.buffer
          rw [hsplit]
          simp
      · exact Or.inl ⟨Or.inr ⟨hfree, hlong⟩, hr⟩
      · refine Or.inr (Or.inl ⟨?_, hfree, hr⟩)
        rintro (overrun | ⟨_, hlong⟩)
        · exact clear overrun
        · exact absurd hle (Nat.not_le.mpr hlong)
    · -- The line has been handed out, and the chunk is left over.
      refine Or.inr (Or.inr ⟨?_, head, kept, used, unused ++ [chunk], ?_, hn, hsplit, by rw [hread]; rfl⟩)
      · rintro (overrun | ⟨hfree, _⟩)
        · exact clear overrun
        · have hm : feed ∈ t.buffer ++ joined used := by
            rw [hsplit]
            simp
          refine hfree ?_
          rw [List.append_assoc, joined_append, ← List.append_assoc]
          exact List.mem_append_left _ hm
      · rw [List.append_assoc]

/-- Reads have handed out these lines and nothing else. -/
structure Intact (stream : Stream) (bytes : List UInt8) (lines : List String) (now : Transport)
    (wait : Option Wait) : Prop where
  kept : now.stream = some stream
  room : now.buffer.length ≤ maxLine
  heads : ∃ heads : List (List UInt8),
    (∀ head ∈ heads, feed ∉ head ∧ head.length < maxLine + chunkSize) ∧
      bytes = heads.flatMap (· ++ [feed]) ++ now.buffer ∧ lines = heads.map text
  wait : wait = none ∨ wait = some (.receive stream) ∧ feed ∉ now.buffer

variable {came : List Chunk} {lines : List String} {wait : Option Wait} {bytes : List UInt8}

theorem intact_readOn {later : Transport} {progress : Progress} {more : List String}
    (hs : now.stream = some stream)
    (near : ∀ head rest, now.buffer = head ++ feed :: rest → feed ∉ head →
      head.length < maxLine + chunkSize ∧ rest.length ≤ maxLine)
    (hheads : ∃ heads : List (List UInt8),
      (∀ head ∈ heads, feed ∉ head ∧ head.length < maxLine + chunkSize) ∧
        bytes = heads.flatMap (· ++ [feed]) ++ now.buffer ∧ lines = heads.map text)
    (h : now.readOn = (later, progress)) (hmore : progress.told = more.map Notice.line) :
    Intact stream bytes (lines ++ more) later progress.wait? := by
  obtain ⟨heads, hall, hbytes, hlines⟩ := hheads
  rcases readOn_outcome hs with ⟨head, rest, hn, hsplit, hread⟩ | ⟨_, _, hread⟩ | ⟨hn, hle, hread⟩
  · obtain ⟨rfl, rfl⟩ := Prod.mk.inj (hread.symm.trans h)
    obtain ⟨hhead, hrest⟩ := near head rest hsplit hn
    obtain rfl : more = [text head] := by
      have hinj : Function.Injective Notice.line := fun _ _ he => Notice.line.inj he
      have htold : [text head].map Notice.line = more.map Notice.line := hmore
      exact (hinj.list_map htold).symm
    refine ⟨hs, hrest, ⟨heads ++ [head], ?_, ?_, ?_⟩, Or.inl rfl⟩
    · intro other ho
      rcases List.mem_append.mp ho with ho | ho
      · exact hall other ho
      · rw [List.mem_singleton.mp ho]
        exact ⟨hn, hhead⟩
    · rw [hbytes, hsplit]
      simp
    · simp [hlines]
  · obtain ⟨rfl, rfl⟩ := Prod.mk.inj (hread.symm.trans h)
    cases more <;> simp [Progress.told, overlong] at hmore
  · obtain ⟨rfl, rfl⟩ := Prod.mk.inj (hread.symm.trans h)
    obtain rfl : more = [] := by simpa [Progress.told] using hmore
    exact ⟨hs, hle, ⟨heads, hall, hbytes, by simpa using hlines⟩, Or.inr ⟨rfl, hn⟩⟩

theorem Reading.intact {told : List Notice} (hs : t.stream = some stream) (hb : t.buffer = [])
    (reading : t.Reading came told now wait) (hl : told = lines.map Notice.line) :
    Intact stream (joined came) lines now wait := by
  induction reading generalizing lines with
  | start =>
    obtain rfl : lines = [] := by simpa using hl
    exact ⟨hs, by simp [hb], ⟨[], by simp, by simp [hb, joined], rfl⟩, Or.inl rfl⟩
  | issue _ h ih =>
    obtain ⟨earlier, more, rfl, hearlier, hmore⟩ := List.append_eq_map_iff.mp hl
    obtain ⟨kept, room, heads, _⟩ := ih hearlier.symm
    refine intact_readOn kept ?_ heads h hmore.symm
    intro head rest hsplit _
    rw [hsplit, List.length_append, List.length_cons] at room
    omega
  | @arrive came told now wait chunk later progress _ h ih =>
    obtain ⟨earlier, more, rfl, hearlier, hmore⟩ := List.append_eq_map_iff.mp hl
    obtain ⟨kept, room, ⟨heads, hall, hbytes, hlines⟩, hwait⟩ := ih hearlier.symm
    obtain ⟨rfl, hn⟩ : wait = .receive stream ∧ feed ∉ now.buffer := by
      rcases hwait with hwait | ⟨hwait, hn⟩
      · simp at hwait
      · exact ⟨Option.some.inj hwait, hn⟩
    have hread : ({ now with buffer := now.buffer ++ chunk.bytes } : Transport).readOn =
        (later, progress) := Option.some.inj h
    have kept' : ({ now with buffer := now.buffer ++ chunk.bytes } : Transport).stream = some stream := kept
    refine intact_readOn kept' ?_ ⟨heads, hall, ?_, hlines⟩ hread hmore.symm
    · -- Only the last chunk holds a line feed.
      intro head rest hsplit _
      dsimp only at hsplit
      have hp : now.buffer <+: head ++ feed :: rest := by
        rw [← hsplit]
        exact List.prefix_append _ _
      have hle := length_le_of_prefix hp hn
      have hlen := congrArg List.length hsplit
      have hbounded := chunk.bounded
      have hsizes : chunkSize ≤ maxLine := by decide
      simp only [List.length_append, List.length_cons] at hlen
      omega
    · rw [joined_append, hbytes]
      simp [joined]
  | giveUp _ ih =>
    obtain ⟨kept, room, heads, _⟩ := ih hl
    exact ⟨kept, room, heads, Or.inl rfl⟩

theorem read_overlong {chunks : List Chunk} (hs : t.stream = some stream)
    (overrun : Overrun t.buffer chunks) :
    t.read chunks = (t.disconnect, .done (some (.error "Line exceeds 65536 bytes." true))) := by
  rcases read_outcome hs chunks with ⟨_, hread⟩ | ⟨clear, _⟩ | ⟨clear, _⟩
  · exact hread
  · exact absurd overrun clear
  · exact absurd overrun clear

theorem read_waits {chunks : List Chunk} (hs : t.stream = some stream)
    (clear : ¬Overrun t.buffer chunks) (hn : feed ∉ t.buffer ++ joined chunks) :
    t.read chunks = ({ t with buffer := t.buffer ++ joined chunks }, .blocked (.receive stream)) := by
  rcases read_outcome hs chunks with ⟨overrun, _⟩ | ⟨_, _, hread⟩ |
    ⟨_, head, kept, used, unused, rfl, _, hsplit, _⟩
  · exact absurd overrun clear
  · exact hread
  · refine absurd ?_ hn
    rw [joined_append, ← List.append_assoc, hsplit]
    simp

theorem read_line {chunks : List Chunk} {head rest : List UInt8} (hs : t.stream = some stream)
    (clear : ¬Overrun t.buffer chunks) (h : t.buffer ++ joined chunks = head ++ feed :: rest)
    (hn : feed ∉ head) : ∃ kept unused, unused <:+ chunks ∧ rest = kept ++ joined unused ∧
      t.read chunks = ({ t with buffer := kept }, .done (some (.line (text head)))) := by
  rcases read_outcome hs chunks with ⟨overrun, _⟩ | ⟨_, hfree, _⟩ |
    ⟨_, first, kept, used, unused, rfl, hfirst, hsplit, hread⟩
  · exact absurd overrun clear
  · refine absurd ?_ hfree
    rw [h]
    simp
  · have hwhole : first ++ feed :: (kept ++ joined unused) = head ++ feed :: rest := by
      rw [← h, joined_append, ← List.append_assoc, hsplit]
      simp
    obtain ⟨rfl, hrest⟩ := first_line_eq hfirst hn hwhole
    exact ⟨kept, unused, List.suffix_append _ _, hrest.symm, hread⟩

/-- A line is handed out as long as no chunk ends inside it with more than the limit in store, and
otherwise the connection is closed. A line within the limit is handed out however it comes, and one that
exceeds the limit by a chunk or more is refused however it comes; in between it depends on the chunks. -/
theorem read_limit (hs : t.stream = some stream) (hb : t.buffer = [])
    (reading : t.Reading came (lines.map Notice.line) now none) :
    Framed (joined came) lines now.buffer ∧
    (∀ head ∈ (pieces (joined came)).take lines.length, head.length < maxLine + chunkSize) ∧
    (∀ chunks : List Chunk,
      (Overrun now.buffer chunks → now.read chunks =
        (now.disconnect, .done (some (.error "Line exceeds 65536 bytes." true)))) ∧
      (¬Overrun now.buffer chunks → feed ∉ now.buffer ++ joined chunks → now.read chunks =
        ({ now with buffer := now.buffer ++ joined chunks }, .blocked (.receive stream))) ∧
      ∀ head rest, now.buffer ++ joined chunks = head ++ feed :: rest → feed ∉ head →
        (¬Overrun now.buffer chunks → ∃ kept unused, unused <:+ chunks ∧ rest = kept ++ joined unused ∧
          now.read chunks = ({ now with buffer := kept }, .done (some (.line (text head))))) ∧
        (head.length ≤ maxLine → ¬Overrun now.buffer chunks) ∧
        (maxLine + chunkSize ≤ head.length → Overrun now.buffer chunks)) ∧
    ∀ head : List UInt8, feed ∉ head → maxLine < head.length → head.length < maxLine + chunkSize →
      (∃ chunks, joined chunks = head ++ [feed] ∧ ¬Overrun [] chunks) ∧
        ∃ chunks, joined chunks = head ++ [feed] ∧ Overrun [] chunks := by
  obtain ⟨kept, room, ⟨heads, hall, hbytes, rfl⟩, _⟩ := reading.intact hs hb rfl
  have hfree : ∀ head ∈ heads, feed ∉ head := fun head hh => (hall head hh).1
  refine ⟨framed_iff.mpr ⟨heads, hfree, hbytes, rfl⟩, ?_, fun chunks => ?_,
    fun head hn long near => exists_cuts hn long near⟩
  · have hfirst : (pieces (joined came)).take (heads.map text).length = heads := by
      rw [hbytes, pieces_flatMap hfree, List.length_map]
      exact List.take_left
    rw [hfirst]
    exact fun head hh => (hall head hh).2
  · refine ⟨read_overlong kept, read_waits kept, fun head rest h hn => ⟨fun clear => ?_, ?_, ?_⟩⟩
    · exact read_line kept clear h hn
    · exact not_overrun h
    · exact overrun_of_long room h hn

/-- The second line of a connection, once as it should be and once with far too much before its end. -/
theorem read_limit_second_line :
    ∃ (t now : Transport) (stream : Stream) (came chunks long : List Chunk),
      t.stream = some stream ∧ t.buffer = [] ∧ t.Reading came [.line "220-Hi"] now none ∧
      now.buffer ++ joined chunks = [50, 50, 48, 13, 10] ∧
      now.read chunks = ({ now with buffer := [] }, .done (some (.line "220"))) ∧
      joined long = List.replicate 69632 97 ++ [feed] ∧
      now.read long = (now.disconnect, .done (some (.error "Line exceeds 65536 bytes." true))) := by
  let stream : Stream := ⟨0, false⟩
  let t : Transport := { trust := {}, stream := some stream }
  let now : Transport := { t with buffer := [50] }
  let first : Chunk := ⟨[50, 50, 48, 45, 72, 105, 13, 10, 50], by decide, by decide⟩
  have issued : t.Reading [] [] t (some (.receive stream)) := Transport.Reading.start.issue rfl
  have arrived : t.resume (.receive stream) (.received first) =
      some (now, .done (some (.line "220-Hi"))) := by decide +kernel
  have reading : t.Reading [first] (["220-Hi"].map Notice.line) now none := issued.arrive arrived
  obtain ⟨_, _, hread, _⟩ := read_limit rfl rfl reading
  -- One chunk ends between the two bytes of the line end.
  let chunks : List Chunk := [⟨[50, 48, 13], by decide, by decide⟩, ⟨[10], by decide, by decide⟩]
  obtain ⟨hgiven, hfits, _⟩ := (hread chunks).2.2 [50, 50, 48, 13] [] rfl (by decide)
  obtain ⟨kept, unused, _, hkept, hline⟩ := hgiven (hfits (by decide))
  obtain rfl : kept = [] := (List.append_eq_nil_iff.mp hkept.symm).1
  let long := singles (List.replicate 69632 97 ++ [feed])
  have hlong : joined long = List.replicate 69632 97 ++ [feed] := joined_singles _
  have hwhole : now.buffer ++ joined long = (50 :: List.replicate 69632 97) ++ feed :: [] := by
    rw [hlong]
    rfl
  have hfree : feed ∉ 50 :: List.replicate 69632 (97 : UInt8) := by
    rw [List.mem_cons, List.mem_replicate]
    decide
  have hover := ((hread long).2.2 _ _ hwhole hfree).2.2
  refine ⟨t, now, stream, [first], chunks, long, rfl, rfl, reading, rfl, hline, hlong, ?_⟩
  refine (hread long).1 (hover ?_)
  rw [List.length_cons, List.length_replicate]
  decide

/-- A line of one byte more than the limit is handed out or refused, as its chunks end; and with its
carriage return a line of just the limit can be refused. -/
theorem chunks_decide_at_limit :
    ∃ (t : Transport) (chunks cut ended : List Chunk), t.isOpen = true ∧ t.buffer = [] ∧
      joined chunks = List.replicate 65537 97 ++ [feed] ∧ joined cut = joined chunks ∧
      t.read chunks = (t, .done (some (.line (text (List.replicate 65537 97))))) ∧
      t.read cut = (t.disconnect, .done (some (.error "Line exceeds 65536 bytes." true))) ∧
      joined ended = List.replicate 65536 97 ++ [13, feed] ∧
      t.read ended = (t.disconnect, .done (some (.error "Line exceeds 65536 bytes." true))) := by
  have free : ∀ n, feed ∉ List.replicate n (97 : UInt8) := by
    intro n hm
    exact absurd (List.eq_of_mem_replicate hm) (by decide)
  have size : (List.replicate 65537 (97 : UInt8)).length = 65537 := List.length_replicate
  have ended_free : feed ∉ List.replicate 65536 97 ++ [13] := by
    intro hm
    rcases List.mem_append.mp hm with hm | hm
    · exact free _ hm
    · exact absurd hm (by decide)
  have ended_size : (List.replicate 65536 97 ++ [(13 : UInt8)]).length = 65537 := by
    rw [List.length_append, List.length_replicate]
    rfl
  have hlimit : maxLine < 65537 ∧ 65537 < maxLine + chunkSize := by decide
  let stream : Stream := ⟨0, false⟩
  let t : Transport := { trust := {}, stream := some stream }
  have hs : t.stream = some stream := rfl
  obtain ⟨⟨chunks, hchunks, clear⟩, cut, hcut, hover⟩ :=
    exists_cuts (free 65537) (by rw [size]; exact hlimit.1) (by rw [size]; exact hlimit.2)
  obtain ⟨_, ended, hended, hlast⟩ :=
    exists_cuts ended_free (by rw [ended_size]; exact hlimit.1) (by rw [ended_size]; exact hlimit.2)
  obtain ⟨kept, unused, _, hkept, hline⟩ := read_line hs clear hchunks (free 65537)
  obtain rfl : kept = [] := (List.append_eq_nil_iff.mp hkept.symm).1
  refine ⟨t, chunks, cut, ended, rfl, rfl, hchunks, hcut.trans hchunks.symm, hline, ?_, ?_, ?_⟩
  · exact read_overlong hs hover
  · rw [hended, List.append_assoc]
    rfl
  · exact read_overlong hs hlast

end Transport

end FtpControl

import FtpControl.Proofs.Framing
import FtpControl.Proofs.ListingCollection
import FtpControl.Proofs.LineText
import Mathlib.Data.List.TakeWhile

namespace FtpControl

namespace Reply

/-- Without the blanks at its end the line is the same reply, if there is any text left; otherwise
it is no reply any more. -/
theorem ofLine?_trimEnd {line : List Char} {reply : Reply} (h : ofLine? line = some reply) :
    ofLine? (trimEnd line) =
      if blankText reply.text then none else some { reply with text := trimEnd reply.text } := by
  obtain ⟨a, b, c, hn, rfl⟩ := ofLine?_eq_some.mp h
  obtain ⟨_, _, hc⟩ := digits_of_number? hn
  by_cases ht : blankText reply.text = true
  · rw [if_pos ht]
    cases hl : reply.last with
    | true =>
      have hblank : blankText (' ' :: reply.text) = true := by
        rw [blankText, List.all_cons]
        exact ht
      have htrim : trimEnd (a :: b :: c :: ' ' :: reply.text) = [a, b, c] := by
        change trimEnd ([a, b, c] ++ ' ' :: reply.text) = _
        rw [trimEnd_append_of_blank _ hblank]
        exact @trimEnd_of_last [a, b] _ (isBlank_of_isDigit hc)
      change ofLine? (trimEnd (a :: b :: c :: ' ' :: reply.text)) = none
      rw [htrim]
      rfl
    | false =>
      have hblank : blankText (' ' :: reply.text) = true := by
        rw [blankText, List.all_cons]
        exact ht
      have htrim : trimEnd (a :: b :: c :: '-' :: ' ' :: reply.text) = [a, b, c, '-'] := by
        change trimEnd ([a, b, c, '-'] ++ ' ' :: reply.text) = _
        rw [trimEnd_append_of_blank _ hblank]
        exact @trimEnd_of_last [a, b, c] _ (by decide)
      change ofLine? (trimEnd (a :: b :: c :: '-' :: ' ' :: reply.text)) = none
      rw [htrim]
      rfl
  · rw [if_neg ht]
    have htrim : trimEnd (a :: b :: c :: (separator reply.last ++ reply.text)) =
        a :: b :: c :: (separator reply.last ++ trimEnd reply.text) :=
      trimEnd_append (a :: b :: c :: separator reply.last) (by simpa using ht)
    rw [htrim, ofLine?_eq_some]
    exact ⟨a, b, c, hn, rfl⟩

theorem quoted?_append_of_blank (cs : List Char) {blanks : List Char} (h : blankText blanks = true) :
    quoted? (cs ++ blanks) = quoted? cs := by
  have hquote : '"' ∉ blanks := by
    intro hm
    have hb := blankText_iff.mp h _ hm
    simp [isBlank] at hb
  unfold quoted?
  rw [List.dropWhile_append]
  cases hd : cs.dropWhile (· != '"') with
  | nil =>
    have hnil : blanks.dropWhile (· != '"') = [] := by
      rw [List.dropWhile_eq_nil_iff]
      intro c hc
      have hne : c ≠ '"' := fun he => hquote (he ▸ hc)
      simpa using hne
    simp [hnil]
  | cons quote inner =>
    simp only [List.isEmpty_cons, Bool.false_eq_true, ↓reduceIte, List.cons_append]
    by_cases hin : '"' ∈ inner
    · have hshort : (inner.takeWhile (· != '"')).length ≠ inner.length := by
        intro hlength
        have hall := List.takeWhile_eq_self_iff.mp
          ((List.takeWhile_prefix (· != '"')).eq_of_length hlength) _ hin
        simp at hall
      have htake : (inner ++ blanks).takeWhile (· != '"') = inner.takeWhile (· != '"') := by
        rw [List.takeWhile_append, if_neg hshort]
      simp [hin, htake]
    · simp [hin, hquote]

end Reply

theorem Reply.quotedPath_trimEnd (reply : Reply) :
    ({ reply with text := trimEnd reply.text } : Reply).quotedPath = reply.quotedPath := by
  obtain ⟨blanks, hs, hb⟩ := exists_blanks reply.text
  have hquoted : quoted? (trimEnd reply.text) = quoted? reply.text := by
    conv_rhs => rw [hs, quoted?_append_of_blank _ hb]
  simp only [quotedPath, hquoted]

open Session (judge)

theorem Standing.hear_congr {line line' : String} {reply reply' : Reply}
    (h : Reply.ofLine? line.toList = some reply) (h' : Reply.ofLine? line'.toList = some reply')
    (number : reply'.number = reply.number) (last : reply'.last = reply.last)
    (path : reply'.quotedPath = reply.quotedPath) (standing : Standing) :
    standing.hear line' = standing.hear line := by
  cases standing with
  | granted _ | encrypted | ready => rfl
  | due stage =>
    have hgrant : ∀ code, grant line' code stage = grant line code stage := by
      intro code
      have hpath : (Reply.ofLine line'.toList >>= Reply.quotedPath) =
          (Reply.ofLine line.toList >>= Reply.quotedPath) := by
        simp only [Reply.ofLine, h, h', bind, Except.bind, path]
      cases stage with
      | awaitingPwd => simp only [grant, hpath]
      | _ => rfl
    cases hl : reply.last with
    | false =>
      have hcontinued := (Session.judge_continued_iff h).mpr hl
      have hcontinued' := (Session.judge_continued_iff h').mpr (last.trans hl)
      simp only [hear, hcontinued, hcontinued']
    | true =>
      by_cases good : reply.Favourable
      · have good' : reply'.Favourable := by
          rw [Reply.Favourable, number]
          exact good
        have haccepted := Session.judge_accepted h hl good
        have haccepted' := Session.judge_accepted h' (last.trans hl) good'
        simp only [hear, haccepted, haccepted', number, hgrant]
      · have bad' : ¬reply'.Favourable := by
          rw [Reply.Favourable, number]
          exact good
        obtain ⟨message, hrefused⟩ := Session.judge_refused h hl good
        obtain ⟨message', hrefused'⟩ := Session.judge_refused h' (last.trans hl) bad'
        simp only [hear, hrefused, hrefused']

theorem Session.handleLine_invalid {s : Session} {line : String} (today : Date)
    (invalid : judge line = .invalid) (awaiting : s.stage.isAwaiting = true)
    (handshake : s.stage ≠ .awaitingHandshake) (listing : s.stage ≠ .awaitingStat) :
    s.handleLine today line = (s.log line).fail "Invalid reply received." := by
  unfold handleLine
  cases hs : s.stage with
  | notConnected | loggedIn => simp [hs, Stage.isAwaiting] at awaiting
  | awaitingHandshake => exact absurd hs handshake
  | awaitingStat => exact absurd hs listing
  | _ => simp only [accept, invalid]

theorem Session.handleLine_goes_on {s : Session} {line : String} (today : Date)
    (stage : s.stage = .awaitingStat) (hopen : s.transport.isOpen = true)
    (open_ended : judge line = .invalid ∨ judge line = .continued) :
    ∃ (notes : List String) (listing : Array String), s.handleLine today line = { s with
        transport := s.transport.push .readLine
        listing
        news := s.news ++ notes.map .log } ∧
      listing.toList = s.listing.toList ++ [line].filter (judge · = .invalid) := by
  rcases open_ended with hjudge | hjudge
  · have hrow := handleLine_row today stage hopen (judge_invalid_iff.mp hjudge)
    refine ⟨if s.listing.isEmpty then [Listing.placeholder] else [], s.listing.push line, ?_,
      by simp [hjudge]⟩
    rw [hrow]
    split <;> rfl
  · have awaits : s.stage.awaitsReply = true := by rw [stage]; rfl
    refine ⟨[line], s.listing, ?_, by simp [hjudge]⟩
    rw [handleLine_noted today awaits hopen (judge_goesOn_iff.mp hjudge)]
    rfl

/-- While a listing is received, a line that is no reply becomes a line of the listing. -/
theorem Session.handleLine_listed {s : Session} {line : String} (today : Date)
    (invalid : judge line = .invalid) (stage : s.stage = .awaitingStat)
    (hopen : s.transport.isOpen = true) :
    (s.handleLine today line).listing = s.listing.push line := by
  obtain ⟨notes, listing, hline, hlisting⟩ := handleLine_goes_on today stage hopen (Or.inl invalid)
  rw [hline]
  apply Array.toList_inj.mp
  simp [hlisting, invalid]

open LineBuffer

theorem Transport.Reading.line_alone {t now : Transport} {stream : Stream} {came : List Chunk}
    {told : List Notice} {wait : Option Wait} {line : String} (hs : t.stream = some stream)
    (hb : t.buffer = []) (reading : t.Reading came told now wait) (hn : '\n' ∉ line.toList)
    (short : (Utf8.encode line.toList).length < maxLine) (hcame : joined came = encode line) :
    (told = [] ∨ told = [.line (String.ofList (trimEnd line.toList))]) ∧
      (wait ≠ none → told = [.line (String.ofList (trimEnd line.toList))]) ∧
      (wait = none → ∃ more later,
        t.Reading came (told ++ more) later (some (.receive stream))) := by
  have hfeed : feed ∉ Utf8.encode (line.toList ++ ['\r']) := by
    refine Utf8.feed_not_mem_encode ?_
    simp [hn]
  have hpieces : pieces (joined came) = [Utf8.encode (line.toList ++ ['\r'])] := by
    rw [hcame, encode_eq, pieces_append_feed hfeed]
    rfl
  have htext : text (Utf8.encode (line.toList ++ ['\r'])) = String.ofList (trimEnd line.toList) := by
    rw [text_encode, trimEnd_append_of_blank _ (by decide)]
  have bounded : Bounded (joined came) := by
    have hlength : (Utf8.encode (line.toList ++ ['\r'])).length ≤ maxLine := by
      have hreturn : Utf8.encode ['\r'] = [13] := by decide
      have hsplit : Utf8.encode (line.toList ++ ['\r']) =
          Utf8.encode line.toList ++ Utf8.encode ['\r'] := List.flatMap_append
      rw [hsplit, hreturn, List.length_append]
      exact short
    have hone := @bounded_of_short [Utf8.encode (line.toList ++ ['\r'])] []
      (by simpa using hlength) (by decide)
    rw [hcame, encode_eq]
    simpa using hone
  obtain ⟨_, ⟨lines, rfl, framed⟩, hwait⟩ := reading.readTo hs hb bounded
  refine ⟨?_, ?_, ?_⟩
  · have htold : lines = ((pieces (joined came)).take lines.length).map text := framed.told
    rw [hpieces] at htold
    cases lines with
    | nil => exact Or.inl rfl
    | cons first lines =>
      simp only [List.length_cons, List.take_succ_cons, List.take_nil, List.map_cons, List.map_nil,
        htext] at htold
      rw [htold]
      exact Or.inr rfl
  · intro hw
    rcases hwait with hnone | ⟨_, hfeed'⟩
    · exact absurd hnone hw
    · rw [framed.complete hfeed', hpieces, List.map_singleton, htext, List.map_singleton]
  · rintro rfl
    exact reading.goes_on hs hb bounded

/-- A line of a reply keeps its code and its kind on its way through the framing if and only if its
text is not blank. If it is, what comes out is no reply: wherever one is due the session ends, and in
a listing it becomes an entry. -/
theorem reply_kept_iff {line : String} {reply : Reply} (h : Reply.ofLine? line.toList = some reply)
    (hn : '\n' ∉ line.toList) (short : (Utf8.encode line.toList).length < maxLine) :
    ∃ delivered : String,
      (∀ {t now : Transport} {stream : Stream} {came : List Chunk} {told : List Notice}
          {wait : Option Wait}, t.stream = some stream → t.buffer = [] →
        t.Reading came told now wait → joined came = encode line →
        (told = [] ∨ told = [.line delivered]) ∧ (wait ≠ none → told = [.line delivered]) ∧
          (wait = none → ∃ more later,
            t.Reading came (told ++ more) later (some (.receive stream)))) ∧
      ((∃ later, Reply.ofLine? delivered.toList = some later ∧ later.number = reply.number ∧
          later.last = reply.last ∧ later.negative = reply.negative) ↔
        blankText reply.text = false) ∧
      (blankText reply.text = false →
        judge delivered ≠ .invalid ∧
          ∀ standing : Standing, standing.hear delivered = standing.hear line) ∧
      (blankText reply.text = true → ∀ (today : Date) (s : Session), s.stage.isAwaiting = true →
        (s.stage ≠ .awaitingHandshake → s.stage ≠ .awaitingStat →
          s.handleLine today delivered = (s.log delivered).fail "Invalid reply received.") ∧
        (s.stage = .awaitingStat → s.transport.isOpen = true →
          (s.handleLine today delivered).listing = s.listing.push delivered)) := by
  have hkept := Reply.ofLine?_trimEnd h
  rw [← String.toList_ofList (l := trimEnd line.toList)] at hkept
  refine ⟨String.ofList (trimEnd line.toList), ?_, ?_, ?_, ?_⟩
  · intro t now stream came told wait hs hb reading hcame
    exact reading.line_alone hs hb hn short hcame
  · constructor
    · rintro ⟨later, hlater, _⟩
      by_cases hblank : blankText reply.text = true
      · rw [hkept, if_pos hblank] at hlater
        simp at hlater
      · simpa using hblank
    · intro hblank
      rw [if_neg (by simp [hblank])] at hkept
      exact ⟨_, hkept, rfl, rfl, rfl⟩
  · intro hblank
    rw [if_neg (by simp [hblank])] at hkept
    refine ⟨?_, Standing.hear_congr h hkept rfl rfl reply.quotedPath_trimEnd⟩
    rw [ne_eq, Session.judge_invalid_iff, hkept]
    simp
  · intro hblank today s awaiting
    rw [if_pos hblank] at hkept
    have invalid := Session.judge_invalid_iff.mpr hkept
    refine ⟨?_, ?_⟩
    · intro handshake listing
      exact Session.handleLine_invalid today invalid awaiting handshake listing
    · intro stage hopen
      exact Session.handleLine_listed today invalid stage hopen

theorem welcome_kept_in_chunks :
    ∃ (t now : Transport) (came : List Chunk) (wait : Option Wait),
      joined came = encode "220-  Hi \t" ∧ t.Reading came [.line "220-  Hi"] now wait ∧
      (∃ later, Reply.ofLine? "220-  Hi".toList = some later ∧ later.number = 220 ∧
        later.last = false ∧ later.negative = false) ∧
      ∀ standing : Standing, standing.hear "220-  Hi" = standing.hear "220-  Hi \t" := by
  let stream : Stream := ⟨0, false⟩
  let held (buffer : List UInt8) : Transport := { trust := {}, stream := some stream, buffer }
  let first : Chunk := ⟨[50, 50, 48, 45, 32], by decide, by decide⟩
  let second : Chunk := ⟨[32, 72, 105, 32, 9, 13, 10], by decide, by decide⟩
  have waits : (held []).begin .readLine = (held [], .blocked (.receive stream)) := by decide +kernel
  have arrived : (held []).resume (.receive stream) (.received first) =
      some (held first.bytes, .blocked (.receive stream)) := by decide +kernel
  have ended : (held first.bytes).resume (.receive stream) (.received second) =
      some (held [], .done (some (.line "220-  Hi"))) := by decide +kernel
  have reading : (held []).Reading [first, second] [.line "220-  Hi"] (held []) none :=
    ((Transport.Reading.start.issue waits).arrive arrived).arrive ended
  have hcame : joined [first, second] = encode "220-  Hi \t" := by decide +kernel
  have h : Reply.ofLine? "220-  Hi \t".toList = some ⟨220, false, " Hi \t".toList⟩ := by decide +kernel
  obtain ⟨delivered, hread, hkind, hsame, _⟩ := reply_kept_iff h (by decide) (by decide +kernel)
  obtain rfl : "220-  Hi" = delivered := by
    rcases (hread rfl rfl reading hcame).1 with hnil | hline
    · simp at hnil
    · simpa using hline
  have hblank : blankText (" Hi \t".toList) = false := by decide +kernel
  obtain ⟨later, hlater, number, last, negative⟩ := hkind.mpr hblank
  exact ⟨held [], held [], [first, second], none, hcame, reading,
    ⟨later, hlater, number, last, negative.trans (by decide +kernel)⟩, (hsame hblank).2⟩

/-- A welcome of a code and a space alone is a good reply, and yet it ends the session. -/
theorem blank_welcome_fatal :
    ∃ (line : String) (p : Profile) (moves : List Runner.Move) (r : Runner) (bytes : List UInt8),
      Reply.ofLine? line.toList = some ⟨220, true, []⟩ ∧
      Runner.Run (Runner.start p true) moves r ∧
      Deed.came (Runner.deeds moves) = encode line ∧
      Runner.deeds moves =
        [.opened 0, .received ⟨0, false⟩ (encode line), .heard .awaitingWelcome bytes "220"] ∧
      Reply.ofLine? "220".toList = none ∧
      r.session.news.getLast? = some (.fatal "Invalid reply received.") := by
  let p : Profile :=
    { host := "localhost", username := "user", password := "secret", authTls := false }
  have h : (Runner.rehearse p (Runner.Input.welcomed 0 "220 \r\n")).map (fun x =>
      (Runner.deeds x.1, x.2.session.news.getLast?)) =
      some ([.opened 0, .received ⟨0, false⟩ (encode "220 "),
        .heard .awaitingWelcome (encode "220 ") "220"],
        some (.fatal "Invalid reply received.")) := by decide +kernel
  obtain ⟨⟨moves, r⟩, hplay, hr⟩ := Option.map_eq_some_iff.mp h
  obtain ⟨hdeeds, hnews⟩ := Prod.mk.inj hr
  have hcame : Deed.came (Runner.deeds moves) = encode "220 " := by
    rw [show Runner.deeds moves = _ from hdeeds]
    simp [Deed.came]
  exact ⟨"220 ", p, moves, r, _, by decide, Runner.run_of_play hplay, hcame, hdeeds, by decide, hnews⟩

end FtpControl

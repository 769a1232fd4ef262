import FtpControl.Proofs.Layout
import FtpControl.Proofs.ReplyFraming
import FtpControl.Proofs.ListingReading

namespace FtpControl

open Session (judge)

namespace Reply

theorem digit_digitChar {d : Nat} (h : d < 10) :
    isDigit (Nat.digitChar d) = true ∧ digitValue (Nat.digitChar d) = d := by
  interval_cases d <;> decide

theorem ofLine?_line (reply : Reply) : ofLine? reply.line = some reply := by
  obtain ⟨number, last, text⟩ := reply
  have hlt : number.val < 1000 := number.isLt
  obtain ⟨hd1, hv1⟩ := @digit_digitChar (number.val / 100) (by omega)
  obtain ⟨hd2, hv2⟩ := @digit_digitChar (number.val / 10 % 10) (by omega)
  obtain ⟨hd3, hv3⟩ := @digit_digitChar (number.val % 10) (by omega)
  have hsum : 100 * (number.val / 100) + 10 * (number.val / 10 % 10) + number.val % 10 = number.val := by
    omega
  rw [ofLine?_eq_some]
  refine ⟨Nat.digitChar (number.val / 100), Nat.digitChar (number.val / 10 % 10),
    Nat.digitChar (number.val % 10), ?_, ?_⟩
  · simp only [number?, hd1, hd2, hd3, hv1, hv2, hv3, hsum, hlt, Bool.and_self, and_self, ↓reduceDIte]
  · cases last with
    | true => rfl
    | false => rfl

theorem ofLine?_of_not_digit {c : Char} (h : isDigit c = false) (cs : List Char) :
    ofLine? (c :: cs) = none := by
  rw [Option.eq_none_iff_forall_ne_some]
  intro reply hr
  obtain ⟨d, hd, hdigit⟩ := head_of_ofLine? hr
  have he : c = d := Option.some.inj hd
  simp [he, hdigit] at h

end Reply

def delivered (line : List Char) : String :=
  String.ofList (trimEnd line)

namespace Listing

/-- A line in front of the reply that ends the answer. -/
inductive Part where
  | row (listed : Row)
  | blank (text : List Char) (blank : blankText text = true) (one_line : '\n' ∉ text)
  | total (rest : List Char) (one_line : '\n' ∉ rest)
  /-- The server says something and has not ended its reply. -/
  | note (reply : Reply) (goes_on : reply.last = false) (worded : blankText reply.text = false)
      (one_line : '\n' ∉ reply.text)

/-- How a line ends: at a line feed, or at a carriage return with a line feed behind it. -/
inductive Ending where
  | feed
  | returnFeed
  deriving DecidableEq, Repr

def Ending.text : Ending → List Char
  | .feed => []
  | .returnFeed => ['\r']

namespace Part

def line : Part → List Char
  | .row listed => listed.line
  | .blank text _ _ => text
  | .total rest _ => "total".toList ++ rest
  | .note reply _ _ _ => reply.line

def entry? : Part → Option Entry
  | .row listed => some listed.entry
  | _ => none

end Part

/-- An answer to the command for a listing. -/
structure Response where
  parts : List (Part × Ending)
  closing : Reply
  ending : Ending
  last : closing.last = true
  favourable : closing.Favourable
  worded : blankText closing.text = false
  one_line : '\n' ∉ closing.text
  short : ∀ sent ∈ parts, (Utf8.encode sent.1.line).length < 65536
  closing_short : (Utf8.encode closing.line).length < 65536

namespace Response

def sent (response : Response) : List (List Char) :=
  response.parts.map (fun (part, ending) => part.line ++ ending.text) ++
    [response.closing.line ++ response.ending.text]

def bytes (response : Response) : List UInt8 :=
  (response.sent.map Utf8.encode).flatMap (· ++ [LineBuffer.feed])

def entries (response : Response) : List Entry :=
  response.parts.filterMap fun (part, _) => part.entry?

def body (response : Response) : List String :=
  response.parts.map fun (part, _) => delivered part.line

end Response

theorem delivered_ended (line : List Char) (ending : Ending) :
    LineBuffer.text (Utf8.encode (line ++ ending.text)) = delivered line := by
  have hblank : blankText ending.text = true := by cases ending <;> decide
  rw [LineBuffer.text_encode, trimEnd_append_of_blank line hblank, delivered]

theorem length_ended {line : List Char} (h : (Utf8.encode line).length < LineBuffer.maxLine)
    (ending : Ending) : (Utf8.encode (line ++ ending.text)).length ≤ LineBuffer.maxLine := by
  have hsplit : Utf8.encode (line ++ ending.text) = Utf8.encode line ++ Utf8.encode ending.text :=
    List.flatMap_append
  have hone : (Utf8.encode ending.text).length ≤ 1 := by cases ending <;> decide
  rw [hsplit, List.length_append]
  omega

theorem one_line_ended {line : List Char} (h : '\n' ∉ line) (ending : Ending) :
    '\n' ∉ line ++ ending.text := by
  have hending : '\n' ∉ ending.text := by cases ending <;> decide
  simp [h, hending]

theorem one_line_reply {reply : Reply} (h : '\n' ∉ reply.text) : '\n' ∉ reply.line := by
  obtain ⟨a, b, c, hn, hline⟩ := Reply.ofLine?_eq_some.mp reply.ofLine?_line
  obtain ⟨ha, hb, hc⟩ := Reply.digits_of_number? hn
  have hdigit : ∀ {d : Char}, isDigit d = true → '\n' ≠ d := by
    rintro d hd rfl
    simp [isDigit] at hd
  have hseparator : '\n' ∉ Reply.separator reply.last := by
    cases reply.last <;> decide
  rw [hline]
  simp [hdigit ha, hdigit hb, hdigit hc, hseparator, h]

theorem judge_delivered {reply : Reply} (worded : blankText reply.text = false) :
    Reply.ofLine? (delivered reply.line).toList =
      some { reply with text := trimEnd reply.text } := by
  have hkept := Reply.ofLine?_trimEnd reply.ofLine?_line
  rw [if_neg (by simp [worded])] at hkept
  rw [delivered, String.toList_ofList, hkept]

namespace Part

theorem one_line (part : Part) : '\n' ∉ part.line := by
  cases part with
  | row listed => exact listed.line_one_line
  | blank text _ h => exact h
  | total rest h =>
    have htotal : '\n' ∉ "total".toList := by decide
    simp only [line, List.mem_append, htotal, h, or_self, not_false_eq_true]
  | note reply _ _ h => exact one_line_reply h

/-- A line is read as the entry that it stands for, or passed over, or taken for a part of a reply. -/
theorem delivered_cases (part : Part) :
    (judge (delivered part.line) = .invalid ∧
      ((PassedOver (delivered part.line) ∧ part.entry? = none) ∨
        ¬PassedOver (delivered part.line) ∧ ∃ found, part.entry? = some found ∧
          ∀ today, Entry.ofLine today (delivered part.line).toList = .ok found)) ∨
      judge (delivered part.line) = .continued ∧ part.entry? = none := by
  cases part with
  | row listed =>
    obtain ⟨c, hc, rest, hline⟩ := listed.line_eq_cons
    have hall : "-dlbcps".toList.all (fun d => !isDigit d && !isBlank d && d != 't') = true := by decide
    have hletter := List.all_eq_true.mp hall c hc
    simp only [Bool.and_eq_true, Bool.not_eq_true', bne_iff_ne] at hletter
    obtain ⟨⟨hdigit, hblank⟩, ht⟩ := hletter
    have htext : (delivered listed.line).toList = c :: rest := by
      rw [delivered, listed.trimEnd_line, String.toList_ofList, hline]
    refine Or.inl ⟨?_, Or.inr ⟨?_, listed.entry, rfl, ?_⟩⟩
    · rw [line, Session.judge_invalid_iff, htext]
      exact Reply.ofLine?_of_not_digit hdigit rest
    · rw [line, PassedOver, htext]
      rintro (hall | hp)
      · simp [blankText, hblank] at hall
      · exact ht (List.cons_prefix_cons.mp hp).1.symm
    · intro today
      rw [line, htext, ← hline, listed.ofLine_line]
  | blank text hblank _ =>
    have hempty : delivered text = "" := by rw [delivered, trimEnd_of_blank hblank, String.ofList_nil]
    refine Or.inl ⟨?_, Or.inl ⟨?_, rfl⟩⟩
    · rw [line, hempty]
      decide
    · rw [line, hempty]
      exact Or.inl (by decide)
  | total rest _ =>
    have htext : (delivered ("total".toList ++ rest)).toList = "total".toList ++ trimEnd rest := by
      have hsharp : EndsSharp "total".toList := ⟨"tota".toList, 'l', rfl, by decide⟩
      rw [delivered, hsharp.trimEnd_append, String.toList_ofList]
    refine Or.inl ⟨?_, Or.inl ⟨?_, rfl⟩⟩
    · rw [line, Session.judge_invalid_iff, htext]
      exact Reply.ofLine?_of_not_digit (by decide) _
    · rw [line, PassedOver, htext]
      exact Or.inr (List.prefix_append _ _)
  | note reply goes_on worded _ =>
    have hreply := judge_delivered worded
    exact Or.inr ⟨(Session.judge_continued_iff hreply).mpr goes_on, rfl⟩

end Part

/-- Of the lines of an answer that are no parts of replies the rows are entries, and none is rejected. -/
theorem sifted_parts (today : Date) (parts : List Part) :
    Sifted today ((parts.map fun part => delivered part.line).filter (judge · = .invalid))
      (parts.filterMap Part.entry?) [] := by
  induction parts with
  | nil => exact .nil
  | cons part parts ih =>
    rw [List.map_cons]
    rcases part.delivered_cases with ⟨hjudge, ⟨passed, hnone⟩ | ⟨meant, found, hsome, hread⟩⟩ |
      ⟨hjudge, hnone⟩
    · rw [List.filter_cons_of_pos (by simp [hjudge]), List.filterMap_cons_none hnone]
      exact .passes passed ih
    · rw [List.filter_cons_of_pos (by simp [hjudge]), List.filterMap_cons_some hsome]
      exact .takes meant (hread today) ih
    · rw [List.filter_cons_of_neg (by simp [hjudge]), List.filterMap_cons_none hnone]
      exact ih

/-- In either way of reading the entries are those of the rows. -/
theorem read_parts (today : Date) (isStrict : Bool) (parts : List Part) :
    read today isStrict ((parts.map fun part => delivered part.line).filter (judge · = .invalid)) =
      .ok (parts.filterMap Part.entry?) := by
  cases isStrict with
  | true => exact (sifted_parts today parts).strict
  | false => exact congrArg Except.ok (sifted_parts today parts).lenient

namespace Response

variable (response : Response)

theorem framed : LineBuffer.Framed response.bytes (response.body ++ [delivered response.closing.line]) [] := by
  refine LineBuffer.framed_iff.mpr ⟨response.sent.map Utf8.encode, ?_, ?_, ?_⟩
  · intro head hh
    obtain ⟨line, hl, rfl⟩ := List.mem_map.mp hh
    refine Utf8.feed_not_mem_encode ?_
    rcases List.mem_append.mp hl with hl | hl
    · obtain ⟨⟨part, ending⟩, _, rfl⟩ := List.mem_map.mp hl
      exact one_line_ended part.one_line ending
    · rw [List.mem_singleton.mp hl]
      exact one_line_ended (one_line_reply response.one_line) response.ending
  · rw [bytes, List.append_nil]
  · simp [sent, body, delivered_ended]

theorem ne_bytes_of_nil {came : List UInt8} (h : came = []) : came ≠ response.bytes := by
  simp [h, bytes, sent]

theorem bounded : LineBuffer.Bounded response.bytes := by
  have hshort : ∀ head ∈ response.sent.map Utf8.encode, head.length ≤ LineBuffer.maxLine := by
    intro head hh
    obtain ⟨line, hl, rfl⟩ := List.mem_map.mp hh
    rcases List.mem_append.mp hl with hl | hl
    · obtain ⟨⟨part, ending⟩, hm, rfl⟩ := List.mem_map.mp hl
      exact length_ended (response.short _ hm) ending
    · rw [List.mem_singleton.mp hl]
      exact length_ended response.closing_short response.ending
  have hempty : ([] : List UInt8).length ≤ LineBuffer.maxLine := Nat.zero_le _
  have hbounded := LineBuffer.bounded_of_short hshort hempty
  rwa [List.append_nil] at hbounded

theorem judge_body : ∀ line ∈ response.body, judge line = .invalid ∨ judge line = .continued := by
  intro line hl
  obtain ⟨⟨part, _⟩, _, rfl⟩ := List.mem_map.mp hl
  rcases part.delivered_cases with ⟨hjudge, _⟩ | ⟨hjudge, _⟩
  · exact Or.inl hjudge
  · exact Or.inr hjudge

theorem judge_closing : ∃ code, judge (delivered response.closing.line) = .accepted code :=
  ⟨_, Session.judge_accepted (judge_delivered response.worded) response.last response.favourable⟩

theorem read_body (today : Date) (isStrict : Bool) :
    read today isStrict (response.body.filter (judge · = .invalid)) = .ok response.entries := by
  have hread := read_parts today isStrict (response.parts.map Prod.fst)
  rw [List.map_map, List.filterMap_map] at hread
  exact hread

end Response

end Listing

end FtpControl

import FtpControl.Proofs.LineText
import FtpControl.Proofs.ReplyJudgement

namespace FtpControl

namespace Reply

def unfit : Failure :=
  { kind := .invalidReply, message := "Invalid server reply format." }

def pathless : Failure :=
  { kind := .malformedPath, message := "Invalid path format in PWD reply." }

/-- All that can be asked of a line. -/
structure Reading where
  valid : Bool
  last : Bool
  continued : Bool
  code : Except Failure UInt16
  transient : Except Failure Bool
  permanent : Except Failure Bool
  negative : Except Failure Bool
  message : Except Failure (List Char)
  path : Except Failure (List Char)

/-- What is told of a line by the reply that it is, if it is one. -/
def Reading.ofLine (line : List Char) : Reading where
  valid := (ofLine? line).isSome
  last := (ofLine? line).any Reply.last
  continued := (ofLine? line).any fun reply => !reply.last
  code := Reply.ofLine line >>= Reply.code
  transient := Reply.transient <$> Reply.ofLine line
  permanent := Reply.permanent <$> Reply.ofLine line
  negative := Reply.negative <$> Reply.ofLine line
  message := Reply.text <$> Reply.ofLine line
  path := Reply.ofLine line >>= Reply.quotedPath

def Reading.refused : Reading where
  valid := false
  last := false
  continued := false
  code := .error unfit
  transient := .error unfit
  permanent := .error unfit
  negative := .error unfit
  message := .error unfit
  path := .error unfit

/-- A line of reply shape in its parts. -/
structure Spelling where
  hundreds : Char
  tens : Char
  units : Char
  separator : List Char
  text : List Char
  digits : isDigit hundreds = true ∧ isDigit tens = true ∧ isDigit units = true
  separated : separator = [' '] ∨ separator = ['-', ' ']

namespace Spelling

def line (parts : Spelling) : List Char :=
  parts.hundreds :: parts.tens :: parts.units :: (parts.separator ++ parts.text)

def number (parts : Spelling) : Nat :=
  100 * digitValue parts.hundreds + 10 * digitValue parts.tens + digitValue parts.units

theorem digitValue_le {c : Char} (h : isDigit c = true) : digitValue c ≤ 9 := by
  have hc := isDigit_iff.mp h
  simp only [digitValue]
  omega

theorem number_lt (parts : Spelling) : parts.number < 1000 := by
  have h1 := digitValue_le parts.digits.1
  have h2 := digitValue_le parts.digits.2.1
  have h3 := digitValue_le parts.digits.2.2
  simp only [number]
  omega

def reply (parts : Spelling) : Reply :=
  ⟨⟨parts.number, parts.number_lt⟩, parts.separator == [' '], parts.text⟩

theorem separator_eq (parts : Spelling) :
    parts.separator = Reply.separator (parts.separator == [' ']) := by
  rcases parts.separated with h | h <;> rw [h] <;> rfl

theorem ofLine?_line (parts : Spelling) : ofLine? parts.line = some parts.reply := by
  have hnumber : number? parts.hundreds parts.tens parts.units = some parts.reply.number := by
    have hdigits : (isDigit parts.hundreds && isDigit parts.tens && isDigit parts.units) = true := by
      simp only [parts.digits, Bool.and_self]
    exact dif_pos ⟨hdigits, parts.number_lt⟩
  refine ofLine?_eq_some.mpr ⟨parts.hundreds, parts.tens, parts.units, hnumber, ?_⟩
  rw [line, parts.separator_eq]
  rfl

theorem hundreds_eq (parts : Spelling) {d : Char} (hd : isDigit d = true) :
    decide (parts.hundreds = d) = (parts.reply.number.val / 100 == digitValue d) := by
  have hc := isDigit_iff.mp parts.digits.1
  have hd' := isDigit_iff.mp hd
  have ht := digitValue_le parts.digits.2.1
  have hu := digitValue_le parts.digits.2.2
  have hnumber : parts.reply.number.val = parts.number := rfl
  have hdiv : parts.number / 100 = digitValue parts.hundreds := by
    simp only [number]
    omega
  rw [hnumber, hdiv, Bool.eq_iff_iff, decide_eq_true_iff, beq_iff_eq]
  constructor
  · rintro rfl
    rfl
  · intro h
    simp only [digitValue] at h
    have hsame : parts.hundreds.toNat = d.toNat := by omega
    exact Char.ext (UInt32.toNat_inj.mp hsame)

end Spelling

/-- Up to the second quote a text has one of three forms. -/
theorem quote_cases (cs : List Char) : '"' ∉ cs ∨
    (∃ before inner, cs = before ++ '"' :: inner ∧ '"' ∉ before ∧ '"' ∉ inner) ∨
    ∃ before path behind, cs = before ++ '"' :: (path ++ '"' :: behind) ∧ '"' ∉ before ∧ '"' ∉ path := by
  by_cases hcs : '"' ∈ cs
  · obtain ⟨before, inner, rfl, hbefore⟩ := List.eq_append_cons_of_mem hcs
    by_cases hinner : '"' ∈ inner
    · obtain ⟨path, behind, rfl, hpath⟩ := List.eq_append_cons_of_mem hinner
      exact Or.inr (Or.inr ⟨before, path, behind, rfl, hbefore, hpath⟩)
    · exact Or.inr (Or.inl ⟨before, inner, rfl, hbefore, hinner⟩)
  · exact Or.inl hcs

theorem dropWhile_plain {before : List Char} (h : '"' ∉ before) (cs : List Char) :
    (before ++ cs).dropWhile (· != '"') = cs.dropWhile (· != '"') :=
  List.dropWhile_append_of_pos fun c hc => by
    have hne : c ≠ '"' := fun he => h (he ▸ hc)
    simpa using hne

theorem takeWhile_plain {before : List Char} (h : '"' ∉ before) (cs : List Char) :
    (before ++ cs).takeWhile (· != '"') = before ++ cs.takeWhile (· != '"') :=
  List.takeWhile_append_of_pos fun c hc => by
    have hne : c ≠ '"' := fun he => h (he ▸ hc)
    simpa using hne

theorem quoted?_plain {cs : List Char} (h : '"' ∉ cs) : quoted? cs = none := by
  have hd := dropWhile_plain h []
  rw [List.append_nil] at hd
  simp [quoted?, hd]

theorem quoted?_unclosed {before inner : List Char} (hb : '"' ∉ before) (hi : '"' ∉ inner) :
    quoted? (before ++ '"' :: inner) = none := by
  simp [quoted?, dropWhile_plain hb, hi]

theorem quoted?_closed {before path : List Char} (hb : '"' ∉ before) (hp : '"' ∉ path)
    (behind : List Char) : quoted? (before ++ '"' :: (path ++ '"' :: behind)) = some path := by
  simp [quoted?, dropWhile_plain hb, takeWhile_plain hp]

theorem quoted?_eq_some {cs path : List Char} : quoted? cs = some path ↔
    ∃ before behind, cs = before ++ '"' :: (path ++ '"' :: behind) ∧ '"' ∉ before ∧ '"' ∉ path := by
  constructor
  · intro h
    rcases quote_cases cs with hcs | ⟨before, inner, rfl, hb, hi⟩ | ⟨before, path', behind, rfl, hb, hp⟩
    · simp [quoted?_plain hcs] at h
    · simp [quoted?_unclosed hb hi] at h
    · rw [quoted?_closed hb hp] at h
      obtain rfl := Option.some.inj h
      exact ⟨before, behind, rfl, hb, hp⟩
  · rintro ⟨before, behind, rfl, hb, hp⟩
    exact quoted?_closed hb hp behind

theorem Spelling.quoted?_line (parts : Spelling) : quoted? parts.line = quoted? parts.text := by
  have hfront : '"' ∉ [parts.hundreds, parts.tens, parts.units] ++ parts.separator := by
    have plain : ∀ {c}, isDigit c = true → '"' ≠ c := by
      rintro c hc rfl
      simp [isDigit] at hc
    have hseparator : '"' ∉ parts.separator := by
      rcases parts.separated with hs | hs <;> rw [hs] <;> decide
    simp [plain parts.digits.1, plain parts.digits.2.1, plain parts.digits.2.2, hseparator]
  have hline : parts.line =
      [parts.hundreds, parts.tens, parts.units] ++ parts.separator ++ parts.text := by
    simp [line]
  simp only [quoted?, hline, dropWhile_plain hfront]

theorem Spelling.reading_eq (parts : Spelling) : Reading.ofLine parts.line = {
    valid := true
    last := parts.separator == [' ']
    continued := !(parts.separator == [' '])
    code := parts.reply.code
    transient := .ok (decide (parts.hundreds = '4'))
    permanent := .ok (decide (parts.hundreds = '5'))
    negative := .ok (decide (parts.hundreds = '4') || decide (parts.hundreds = '5'))
    message := .ok parts.text
    path := (quoted? parts.line).elim (.error pathless) .ok } := by
  have htransient : decide (parts.hundreds = '4') = parts.reply.transient :=
    parts.hundreds_eq (by decide)
  have hpermanent : decide (parts.hundreds = '5') = parts.reply.permanent :=
    parts.hundreds_eq (by decide)
  have hpath : parts.reply.quotedPath = (quoted? parts.line).elim (.error pathless) .ok := by
    rw [parts.quoted?_line, quotedPath, show parts.reply.text = parts.text from rfl]
    cases quoted? parts.text <;> rfl
  rw [htransient, hpermanent, ← hpath]
  simp only [Reading.ofLine, Reply.ofLine, parts.ofLine?_line]
  rfl

/-- What is told of a line goes by its parts: one of two ends, the digits for the code and its classes,
the text, and the path between the first two quotes of the line. -/
structure Reading.Fits (reading : Reading) (parts : Spelling) : Prop where
  last : reading.last = true ↔ parts.separator = [' ']
  continued : reading.continued = true ↔ parts.separator = ['-', ' ']
  one_of_two : reading.continued = !reading.last
  message : reading.message = .ok parts.text
  code : 1 ≤ parts.number ∧ parts.number ≤ 699 →
    ∃ code, reading.code = .ok code ∧ code.toNat = parts.number
  out_of_range : ¬(1 ≤ parts.number ∧ parts.number ≤ 699) →
    ∃ code, reading.code = .error (.outOfRange code) ∧ code.toNat = parts.number
  transient : reading.transient = .ok (decide (parts.hundreds = '4'))
  permanent : reading.permanent = .ok (decide (parts.hundreds = '5'))
  negative : reading.negative = .ok (decide (parts.hundreds = '4') || decide (parts.hundreds = '5'))
  path : ∀ path, reading.path = .ok path ↔ ∃ before behind,
    parts.line = before ++ '"' :: (path ++ '"' :: behind) ∧ '"' ∉ before ∧ '"' ∉ path
  pathless : (∀ path, reading.path ≠ .ok path) → reading.path = .error Reply.pathless

theorem Spelling.fits (parts : Spelling) : (Reading.ofLine parts.line).Fits parts := by
  have hvalue : (UInt16.ofNat parts.number).toNat = parts.number := by
    rw [UInt16.toNat_ofNat']
    exact Nat.mod_eq_of_lt (Nat.lt_trans parts.number_lt (by decide))
  have hnumber : parts.reply.number.val = parts.number := rfl
  rw [parts.reading_eq]
  refine ⟨?_, ?_, rfl, rfl, ?_, ?_, rfl, rfl, rfl, ?_, ?_⟩
  · exact beq_iff_eq
  · rcases parts.separated with h | h <;> simp [h]
  · intro h
    exact ⟨_, by simp only [Reply.code, hnumber, h, and_self, ↓reduceIte], hvalue⟩
  · intro h
    exact ⟨_, by simp only [Reply.code, hnumber, h, ↓reduceIte], hvalue⟩
  · intro path
    rw [← quoted?_eq_some]
    cases quoted? parts.line <;> simp
  · intro h
    cases hq : quoted? parts.line with
    | none => rfl
    | some path => exact absurd (by rw [hq]; rfl) (h path)

end Reply

end FtpControl

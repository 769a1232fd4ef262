import FtpControl.Listing.Entry
import FtpControl.Proofs.LineText
import Mathlib.Tactic.IntervalCases

namespace FtpControl

structure Blanks where
  text : List Char
  nonempty : text ≠ []
  blank : blankText text = true

/-- The text of a column in front of the name. -/
structure Token where
  text : List Char
  nonempty : text ≠ []
  unbroken : ∀ c ∈ text, isBlank c = false

def Token.first (token : Token) : Char :=
  token.text.head token.nonempty

/-- The table of kinds: of permissions the first character tells, a dash a file, `d` or `l` a directory
and any other something else. -/
def Token.kind (permissions : Token) : Entry.Kind :=
  if permissions.first = '-' then .file
  else if permissions.first = 'd' ∨ permissions.first = 'l' then .directory
  else .other

def Token.ofChars (text : List Char) (nonempty : text ≠ [])
    (unbroken : text.all (fun c => !isBlank c) = true) : Token where
  text
  nonempty
  unbroken c hc := by simpa using List.all_eq_true.mp unbroken c hc

/-- A number in decimal digits, zeros before it allowed. -/
structure Numeral (n : Nat) where
  digits : List Char
  decimal : allDigits digits = true
  value : ofDigits digits = n

def arrow : List Char :=
  [' ', '-', '>', ' ']

/-- Columns with the blanks between them, and what stands behind the last of these. -/
def compose (gap : Nat → Blanks) : List Token → List Char → List Char
  | [], last => last
  | token :: tokens, last => token.text ++ ((gap tokens.length).text ++ compose gap tokens last)

/-- The text has a first character, and that is no blank. -/
def StartsSharp (cs : List Char) : Prop :=
  ∃ first rest, cs = first :: rest ∧ isBlank first = false

theorem wordStarts_unbroken {cs : List Char} (h : ∀ c ∈ cs, isBlank c = false) (rest : List Char) :
    wordStarts true (cs ++ rest) = wordStarts true rest := by
  induction cs with
  | nil => rfl
  | cons c cs ih =>
    have hc := h c List.mem_cons_self
    rw [List.cons_append, wordStarts, if_neg (by simp [hc]), if_pos rfl]
    exact ih fun other ho => h other (List.mem_cons_of_mem _ ho)

theorem wordStarts_blank {blanks : List Char} (h : blankText blanks = true) (rest : List Char) :
    wordStarts false (blanks ++ rest) = wordStarts false rest := by
  induction blanks with
  | nil => rfl
  | cons c blanks ih =>
    have hc := blankText_iff.mp h c List.mem_cons_self
    have hblanks : blankText blanks = true :=
      blankText_iff.mpr fun other ho => blankText_iff.mp h other (List.mem_cons_of_mem _ ho)
    rw [List.cons_append, wordStarts, if_pos hc]
    exact ih hblanks

theorem columns_token (token : Token) (gap : Blanks) (rest : List Char) :
    columns (token.text ++ (gap.text ++ rest)) = (token.text ++ (gap.text ++ rest)) :: columns rest := by
  obtain ⟨c, cs, htoken⟩ := List.exists_cons_of_ne_nil token.nonempty
  obtain ⟨b, bs, hgap⟩ := List.exists_cons_of_ne_nil gap.nonempty
  have hc : isBlank c = false := token.unbroken c (by simp [htoken])
  have hcs : ∀ other ∈ cs, isBlank other = false := fun other ho =>
    token.unbroken other (by simp [htoken, ho])
  have hb : isBlank b = true := blankText_iff.mp gap.blank b (by simp [hgap])
  have hbs : blankText bs = true :=
    blankText_iff.mpr fun other ho => blankText_iff.mp gap.blank other (by simp [hgap, ho])
  have hafter : wordStarts true (cs ++ (b :: bs ++ rest)) = wordStarts false rest := by
    rw [wordStarts_unbroken hcs, List.cons_append, wordStarts, if_pos hb, wordStarts_blank hbs]
  rw [htoken, hgap, columns, List.cons_append, wordStarts, if_neg (by simp [hc]), if_neg (by simp),
    hafter, columns]

theorem word_token (token : Token) (gap : Blanks) (rest : List Char) :
    word (token.text ++ (gap.text ++ rest)) = token.text := by
  obtain ⟨b, bs, hgap⟩ := List.exists_cons_of_ne_nil gap.nonempty
  have hb : isBlank b = true := blankText_iff.mp gap.blank b (by simp [hgap])
  have hall : ∀ c ∈ token.text, (!isBlank c) = true := fun c hc => by simp [token.unbroken c hc]
  rw [word, List.takeWhile_append_of_pos hall, hgap]
  simp [hb]

theorem columns_compose (gap : Nat → Blanks) (tokens : List Token) (last : List Char) :
    ∃ cols, columns (compose gap tokens last) = cols ++ columns last ∧
      cols.map word = tokens.map Token.text := by
  induction tokens with
  | nil => exact ⟨[], rfl, rfl⟩
  | cons token tokens ih =>
    obtain ⟨cols, hcols, hwords⟩ := ih
    refine ⟨compose gap (token :: tokens) last :: cols, ?_, ?_⟩
    · rw [List.cons_append, ← hcols]
      exact columns_token token _ _
    · rw [List.map_cons, List.map_cons, hwords]
      exact congrArg (· :: _) (word_token token _ _)

theorem columns_of_sharp {first : Char} (h : isBlank first = false) (rest : List Char) :
    ∃ more, columns (first :: rest) = (first :: rest) :: more := by
  refine ⟨wordStarts true rest, ?_⟩
  rw [columns, wordStarts, if_neg (by simp [h]), if_neg (by simp)]

namespace Entry

theorem kindOf_token (permissions : Token) : kindOf permissions.text = permissions.kind := by
  obtain ⟨c, cs, htext⟩ := List.exists_cons_of_ne_nil permissions.nonempty
  have hfirst : permissions.first = c := by simp [Token.first, htext]
  rw [htext, Token.kind, hfirst]
  by_cases hfile : c = '-'
  · rw [if_pos hfile, hfile]
    rfl
  by_cases hdirectory : c = 'd' ∨ c = 'l'
  · rw [if_neg hfile, if_pos hdirectory]
    rcases hdirectory with rfl | rfl <;> rfl
  · rw [if_neg hfile, if_neg hdirectory]
    rw [not_or] at hdirectory
    simp [kindOf, hfile, hdirectory]

theorem beforeArrow?_cons {c : Char} {cs : List Char} (h : ¬arrow <+: c :: cs) :
    beforeArrow? (c :: cs) = (beforeArrow? cs).map (c :: ·) := by
  have hstarts : [' ', '-', '>', ' '].isPrefixOf (c :: cs) = false := by
    simpa [← List.isPrefixOf_iff_prefix, arrow] using h
  rw [beforeArrow?, hstarts, if_neg (by simp)]

theorem beforeArrow?_eq_none {cs : List Char} (h : ¬arrow <:+: cs) : beforeArrow? cs = none := by
  induction cs with
  | nil => rfl
  | cons c cs ih =>
    have hrest : ¬arrow <:+: cs := fun hi => h (hi.trans (List.suffix_cons c cs).isInfix)
    rw [beforeArrow?_cons fun hp => h hp.isInfix, ih hrest]
    rfl

/-- An arrow that begins before the end of the name would lie within it, or begin with its end. -/
theorem beforeArrow?_append {cs : List Char} (h : ¬arrow <:+: cs) (hend : ¬[' ', '-', '>'] <:+ cs)
    (target : List Char) : beforeArrow? (cs ++ (arrow ++ target)) = some cs := by
  induction cs with
  | nil => rfl
  | cons c cs ih =>
    have hrest : ¬arrow <:+: cs := fun hi => h (hi.trans (List.suffix_cons c cs).isInfix)
    have hrestEnd : ¬[' ', '-', '>'] <:+ cs := fun hs => hend (hs.trans (List.suffix_cons c cs))
    have hstarts : ¬arrow <+: c :: (cs ++ (arrow ++ target)) := by
      intro hp
      rcases cs with _ | ⟨d, _ | ⟨e, _ | ⟨f, rest⟩⟩⟩
      · simp [arrow] at hp
      · simp [arrow] at hp
      · obtain ⟨rfl, rfl, rfl⟩ : c = ' ' ∧ d = '-' ∧ e = '>' := by
          simpa [arrow, eq_comm] using hp
        exact hend (List.suffix_refl _)
      · obtain ⟨rfl, rfl, rfl, rfl⟩ : c = ' ' ∧ d = '-' ∧ e = '>' ∧ f = ' ' := by
          simpa [arrow, eq_comm] using hp
        exact h (List.prefix_append arrow rest).isInfix
    rw [List.cons_append, beforeArrow?_cons hstarts, ih hrest hrestEnd]
    rfl

theorem wordAt_of_words {cols : List (List Char)} (after : List (List Char)) {i : Nat}
    {text : List Char} (h : (cols.map word)[i]? = some text) : wordAt (cols ++ after) i = text := by
  rw [List.getElem?_map] at h
  obtain ⟨col, hcol, rfl⟩ := Option.map_eq_some_iff.mp h
  obtain ⟨hi, _⟩ := List.getElem?_eq_some_iff.mp hcol
  rw [wordAt, List.getD_eq_getElem?_getD, List.getElem?_append_left hi, hcol, Option.getD_some]

/-- The columns around the name of the month, and what stands behind the last of them, make up what
is read from a line. -/
theorem ofLine_of_anchor {today : Date} {line rest : List Char} {cols : List (List Char)}
    {i size : Nat} {modified : Timestamp} (hcols : columns line = cols)
    (anchor : anchor? cols = some i) (hrest : cols[i + 3]? = some rest)
    (hsize : natural? (Nat.pow 2 64) (wordAt cols (i - 1)) = some size)
    (hmodified : moment today (wordAt cols i) (wordAt cols (i + 1)) (wordAt cols (i + 2)) =
      .ok modified) :
    ofLine today line = .ok {
      name := String.ofList ((beforeArrow? rest).getD rest)
      kind := if (beforeArrow? rest).isSome then .link else kindOf (wordAt cols 0)
      size := UInt64.ofNat size
      modified } := by
  obtain ⟨hlength, _⟩ := List.getElem?_eq_some_iff.mp hrest
  have hday : ¬cols.length ≤ i + 1 := by omega
  have hclock : ¬cols.length ≤ i + 2 := by omega
  unfold ofLine
  simp only [hcols, anchor, hday, hclock, hrest, hsize, hmodified]
  cases beforeArrow? rest with
  | none => rfl
  | some name => rfl

/-- Nothing is read from a line but by its columns. -/
theorem anchor_of_ofLine {today : Date} {line : List Char} {found : Entry}
    (h : ofLine today line = .ok found) : ∃ i rest size modified,
      anchor? (columns line) = some i ∧ (columns line)[i + 3]? = some rest ∧
      natural? (Nat.pow 2 64) (wordAt (columns line) (i - 1)) = some size ∧
      moment today (wordAt (columns line) i) (wordAt (columns line) (i + 1))
        (wordAt (columns line) (i + 2)) = .ok modified ∧
      found = {
        name := String.ofList ((beforeArrow? rest).getD rest)
        kind := if (beforeArrow? rest).isSome then .link else kindOf (wordAt (columns line) 0)
        size := UInt64.ofNat size
        modified } := by
  cases hanchor : anchor? (columns line) with
  | none => simp [ofLine, hanchor] at h
  | some i =>
    by_cases hday : (columns line).length ≤ i + 1
    · simp [ofLine, hanchor, hday, throw, throwThe, MonadExceptOf.throw, bind, Except.bind] at h
    by_cases hclock : (columns line).length ≤ i + 2
    · simp [ofLine, hanchor, hday, hclock, throw, throwThe, MonadExceptOf.throw, bind, Except.bind] at h
    cases hrest : (columns line)[i + 3]? with
    | none => simp [ofLine, hanchor, hday, hclock, hrest] at h
    | some rest =>
      cases hsize : natural? (Nat.pow 2 64) (wordAt (columns line) (i - 1)) with
      | none => simp [ofLine, hanchor, hday, hclock, hrest, hsize] at h
      | some size =>
        cases hmodified : moment today (wordAt (columns line) i) (wordAt (columns line) (i + 1))
            (wordAt (columns line) (i + 2)) with
        | error fault => simp [ofLine, hanchor, hday, hclock, hrest, hsize, hmodified] at h
        | ok modified =>
          rw [ofLine_of_anchor rfl hanchor hrest hsize hmodified] at h
          exact ⟨i, rest, size, modified, rfl, hrest, hsize, hmodified, (Except.ok.inj h).symm⟩

end Entry

namespace Numeral

variable {n : Nat}

theorem digit (num : Numeral n) : ∀ c ∈ num.digits, isDigit c = true := by
  have h := num.decimal
  simp only [allDigits, Bool.and_eq_true] at h
  exact List.all_eq_true.mp h.2

theorem nonempty (num : Numeral n) : num.digits ≠ [] := by
  intro hnil
  have h := num.decimal
  simp [allDigits, hnil] at h

def token (num : Numeral n) : Token where
  text := num.digits
  nonempty := num.nonempty
  unbroken c hc := isBlank_of_isDigit (num.digit c hc)

def ofNat (n : Nat) : Numeral n where
  digits := Nat.toDigits 10 n
  decimal := by
    have hall : (Nat.toDigits 10 n).all isDigit = true := by
      refine List.all_eq_true.mpr fun c hc => ?_
      have hdigit := Nat.isDigit_of_mem_toDigits (by decide) (by decide) hc
      simp only [Char.isDigit, ge_iff_le, Bool.and_eq_true, decide_eq_true_eq] at hdigit
      simp only [isDigit, Bool.and_eq_true, decide_eq_true_eq]
      exact hdigit
    simp [allDigits, Nat.toDigits_ne_nil, hall]
  value := by
    have hdigits : ofDigits (Nat.toDigits 10 n) = Nat.ofDigitChars 10 (Nat.toDigits 10 n) 0 := by
      rw [Nat.ofDigitChars_eq_foldl]
      rfl
    rw [hdigits, Nat.ofDigitChars_ten_toDigits]

theorem natural?_eq (num : Numeral n) (bound : Nat) :
    FtpControl.natural? bound num.digits = if n < bound then some n else none := by
  simp only [FtpControl.natural?]
  split
  next ds hplus =>
    have hdigit := num.digit '+' (by simp [hplus])
    simp [isDigit] at hdigit
  next => simp only [num.decimal, num.value, true_and]

theorem natural? (num : Numeral n) {bound : Nat} (h : n < bound) :
    FtpControl.natural? bound num.digits = some n := by
  rw [num.natural?_eq, if_pos h]

theorem natural?_of_le (num : Numeral n) {bound : Nat} (h : bound ≤ n) :
    FtpControl.natural? bound num.digits = none := by
  rw [num.natural?_eq, if_neg (not_lt.mpr h)]

end Numeral

theorem toLower_of_isDigit {c : Char} (h : isDigit c = true) : c.toLower = c := by
  simp only [isDigit, Bool.and_eq_true, decide_eq_true_eq] at h
  have hhigh : c.toNat ≤ 57 := UInt32.le_iff_toNat_le.mp h.2
  unfold Char.toLower
  split
  next hupper =>
    have hlow : 65 ≤ c.toNat := UInt32.le_iff_toNat_le.mp hupper.1
    omega
  next => rfl

/-- The months as servers abbreviate them. -/
def abbreviation : Nat → String
  | 1 => "Jan"
  | 2 => "Feb"
  | 3 => "Mar"
  | 4 => "Apr"
  | 5 => "May"
  | 6 => "Jun"
  | 7 => "Jul"
  | 8 => "Aug"
  | 9 => "Sep"
  | 10 => "Oct"
  | 11 => "Nov"
  | 12 => "Dec"
  | _ => ""

theorem month?_abbreviation {month : Nat} (h : 1 ≤ month ∧ month ≤ 12) :
    month? (abbreviation month).toList = some month := by
  obtain ⟨low, high⟩ := h
  interval_cases month <;> decide +kernel

/-- The months are known by their abbreviations, in any letter case, and by nothing else. -/
theorem month?_eq_some {month : Nat} {text : List Char} : month? text = some month ↔
    (1 ≤ month ∧ month ≤ 12) ∧
      text.map Char.toLower = (abbreviation month).toList.map Char.toLower := by
  constructor
  · intro h
    obtain ⟨i, hi, rfl⟩ := Option.map_eq_some_iff.mp h
    obtain ⟨hlt, hname, _⟩ := List.findIdx?_eq_some_iff_getElem.mp hi
    have hspelled : text.map Char.toLower = monthNames[i].toList.map Char.toLower :=
      (beq_iff_eq.mp hname).symm
    have hlength : i < 12 := hlt
    refine ⟨⟨by omega, by omega⟩, ?_⟩
    rw [hspelled]
    interval_cases i <;> rfl
  · rintro ⟨h, spelled⟩
    have habbreviation := month?_abbreviation h
    unfold month? at habbreviation ⊢
    rw [spelled]
    exact habbreviation

theorem letters_of_month? {cs : List Char} {month : Nat} (h : month? cs = some month) :
    ∀ c ∈ cs, c ≠ ':' ∧ c ≠ '-' ∧ c ≠ '+' ∧ isDigit c = false := by
  obtain ⟨⟨low, high⟩, spelled⟩ := month?_eq_some.mp h
  have hall : ∀ c ∈ (abbreviation month).toList.map Char.toLower,
      c ≠ ':' ∧ c ≠ '-' ∧ c ≠ '+' ∧ isDigit c = false := by
    interval_cases month <;> simp [abbreviation, isDigit]
  rw [← spelled] at hall
  intro c hc
  obtain ⟨hcolon, hminus, hplus, hdigit⟩ := hall c.toLower (List.mem_map_of_mem hc)
  refine ⟨?_, ?_, ?_, ?_⟩
  · rintro rfl
    exact hcolon rfl
  · rintro rfl
    exact hminus rfl
  · rintro rfl
    exact hplus rfl
  · by_contra hd
    rw [toLower_of_isDigit (by simpa using hd)] at hdigit
    exact hd hdigit

/-- No name of a month begins with a digit. -/
theorem month?_of_digit {c : Char} (h : isDigit c = true) (cs : List Char) :
    month? (c :: cs) = none := by
  rw [Option.eq_none_iff_forall_ne_some]
  intro month hmonth
  obtain ⟨_, _, _, hletter⟩ := letters_of_month? hmonth c List.mem_cons_self
  simp [h] at hletter

theorem Date.month_bounds (d : Date) : 1 ≤ d.month ∧ d.month ≤ 12 := by
  obtain ⟨_, hday, hle⟩ := d.valid
  have hpos : 1 ≤ daysInMonth d.year d.month := hday.trans hle
  unfold daysInMonth at hpos
  split at hpos <;> omega

theorem Date.day_bounds (d : Date) : 1 ≤ d.day ∧ d.day ≤ 31 := by
  obtain ⟨_, hday, hle⟩ := d.valid
  have hmost : daysInMonth d.year d.month ≤ 31 := by
    unfold daysInMonth
    split <;> (try split) <;> omega
  exact ⟨hday, hle.trans hmost⟩

theorem integer?_of_month? {cs : List Char} {month : Nat} (h : month? cs = some month) (half : Nat) :
    integer? half cs = none := by
  have letters := letters_of_month? h
  cases cs with
  | nil => simp [integer?, natural?, allDigits]
  | cons c cs =>
    obtain ⟨_, hminus, hplus, hdigit⟩ := letters c List.mem_cons_self
    simp [integer?, natural?, allDigits, hminus, hplus, hdigit]

theorem Entry.month?_of_moment {today : Date} {monthWord dayWord clockWord : List Char} {t : Timestamp}
    (h : moment today monthWord dayWord clockWord = .ok t) : ∃ month, month? monthWord = some month := by
  cases hm : month? monthWord with
  | some month => exact ⟨month, rfl⟩
  | none => simp [moment, hm] at h

/-- The columns in front of a name: the permissions, the number of links, the owner and the group or
either or neither of them, the size, and a date that is good today. -/
structure Columns (today : Date) where
  permissions : Token
  links : Token
  owners : List Token
  size : UInt64
  sizeDigits : Numeral size.toNat
  month : Token
  day : Token
  clock : Token
  modified : Timestamp
  dated : Entry.moment today month.text day.text clock.text = .ok modified

namespace Columns

variable {today : Date} (c : Columns today) (gap : Nat → Blanks) {last : List Char}

def tokens : List Token :=
  [c.permissions, c.links] ++ c.owners ++ [c.sizeDigits.token, c.month, c.day, c.clock]

def line (last : List Char) : List Char :=
  compose gap c.tokens last

/-- What the columns tell of a name, which is that of a link if it holds an arrow. -/
def entry (last : List Char) : Entry where
  name := String.ofList ((Entry.beforeArrow? last).getD last)
  kind := if (Entry.beforeArrow? last).isSome then .link else c.permissions.kind
  size := c.size
  modified := c.modified

/-- The owner has a number for a name and the group that of a month. -/
def Misleading : Prop :=
  ∃ owner group, c.owners = [owner, group] ∧ allDigits owner.text = true ∧
    (month? group.text).isSome = true

theorem length_tokens : c.tokens.length = 6 + c.owners.length := by
  simp [tokens]
  omega

theorem columns_line (sharp : StartsSharp last) :
    ∃ cols more, columns (c.line gap last) = cols ++ last :: more ∧
      cols.map word = c.tokens.map Token.text := by
  obtain ⟨first, rest, rfl, hfirst⟩ := sharp
  obtain ⟨cols, hcols, hwords⟩ := columns_compose gap c.tokens (first :: rest)
  obtain ⟨more, hmore⟩ := columns_of_sharp hfirst rest
  exact ⟨cols, more, by rw [line, hcols, hmore], hwords⟩

theorem wordAt_line (sharp : StartsSharp last) {i : Nat} {token : Token} (h : c.tokens[i]? = some token) :
    Entry.wordAt (columns (c.line gap last)) i = token.text := by
  obtain ⟨cols, more, hcols, hwords⟩ := c.columns_line gap sharp
  rw [hcols]
  exact Entry.wordAt_of_words _ (by rw [hwords, List.getElem?_map, h]; rfl)

theorem last_line (sharp : StartsSharp last) :
    (columns (c.line gap last))[c.tokens.length]? = some last := by
  obtain ⟨cols, more, hcols, hwords⟩ := c.columns_line gap sharp
  have hlength : cols.length = c.tokens.length := by
    simpa using congrArg List.length hwords
  rw [hcols, ← hlength, List.getElem?_append_right le_rfl, Nat.sub_self]
  rfl

theorem tokens_behind (k : Nat) :
    c.tokens[2 + c.owners.length + k]? = [c.sizeDigits.token, c.month, c.day, c.clock][k]? := by
  rw [tokens, List.getElem?_append_right (by simp; omega)]
  congr 1
  simp
  omega

theorem month?_size : month? c.sizeDigits.token.text = none := by
  obtain ⟨d, ds, hd⟩ := List.exists_cons_of_ne_nil c.sizeDigits.nonempty
  have hdigit := c.sizeDigits.digit d (by simp [hd])
  change month? c.sizeDigits.digits = none
  rw [hd]
  exact month?_of_digit hdigit ds

/-- The month's name is found behind the size, unless the group's is one behind a number. -/
theorem anchor?_line (sharp : StartsSharp last) (few : c.owners.length ≤ 2) (clear : ¬c.Misleading) :
    Entry.anchor? (columns (c.line gap last)) = some (3 + c.owners.length) := by
  obtain ⟨month, hmonth⟩ := Entry.month?_of_moment c.dated
  have hword := @wordAt_line _ c gap _ sharp
  have hnone := c.month?_size
  have hdigits : allDigits c.sizeDigits.token.text = true := c.sizeDigits.decimal
  rcases howners : c.owners with _ | ⟨owner, _ | ⟨group, _ | ⟨more, others⟩⟩⟩
  · have htokens : c.tokens = [c.permissions, c.links, c.sizeDigits.token, c.month, c.day, c.clock] := by
      simp [tokens, howners]
    rw [htokens] at hword
    have h2 := @hword 2 _ rfl
    have h3 := @hword 3 _ rfl
    simp [Entry.anchor?, h2, h3, hmonth, hdigits]
  · have htokens : c.tokens =
        [c.permissions, c.links, owner, c.sizeDigits.token, c.month, c.day, c.clock] := by
      simp [tokens, howners]
    rw [htokens] at hword
    have h3 := @hword 3 _ rfl
    have h4 := @hword 4 _ rfl
    simp [Entry.anchor?, h3, h4, hmonth, hdigits, hnone]
  · have htokens : c.tokens =
        [c.permissions, c.links, owner, group, c.sizeDigits.token, c.month, c.day, c.clock] := by
      simp [tokens, howners]
    rw [htokens] at hword
    have h2 := @hword 2 _ rfl
    have h3 := @hword 3 _ rfl
    have h4 := @hword 4 _ rfl
    have h5 := @hword 5 _ rfl
    have hgroup : ((month? group.text).isSome && allDigits owner.text) = false := by
      rw [Bool.and_eq_false_iff]
      by_contra h
      simp only [not_or, Bool.not_eq_false] at h
      exact clear ⟨owner, group, howners, h.2, h.1⟩
    simp [Entry.anchor?, h2, h3, h4, h5, hmonth, hdigits, hnone, hgroup]
  · simp [howners] at few

theorem ofLine_line (sharp : StartsSharp last) (few : c.owners.length ≤ 2) (clear : ¬c.Misleading) :
    Entry.ofLine today (c.line gap last) = .ok (c.entry last) := by
  have hword : ∀ {k : Nat} {token : Token},
      [c.sizeDigits.token, c.month, c.day, c.clock][k]? = some token →
        Entry.wordAt (columns (c.line gap last)) (2 + c.owners.length + k) = token.text := fun h =>
    c.wordAt_line gap sharp (by rw [tokens_behind, h])
  have hsize : natural? (Nat.pow 2 64) c.sizeDigits.token.text = some c.size.toNat :=
    c.sizeDigits.natural? c.size.toNat_lt
  have hplace : 3 + c.owners.length = 2 + c.owners.length + 1 := by omega
  have hrest : (columns (c.line gap last))[3 + c.owners.length + 3]? = some last := by
    rw [← c.last_line gap sharp, length_tokens]
    congr 1
    omega
  have hsizeWord : natural? (Nat.pow 2 64)
      (Entry.wordAt (columns (c.line gap last)) (3 + c.owners.length - 1)) = some c.size.toNat := by
    rw [hplace, Nat.add_sub_cancel, ← hsize]
    exact congrArg _ (hword (k := 0) rfl)
  have hdated : Entry.moment today (Entry.wordAt (columns (c.line gap last)) (3 + c.owners.length))
      (Entry.wordAt (columns (c.line gap last)) (3 + c.owners.length + 1))
      (Entry.wordAt (columns (c.line gap last)) (3 + c.owners.length + 2)) = .ok c.modified := by
    rw [hplace, hword (k := 1) rfl, Nat.add_assoc _ 1 1, hword (k := 2) rfl, Nat.add_assoc _ 1 2,
      hword (k := 3) rfl]
    exact c.dated
  have hfirst : Entry.wordAt (columns (c.line gap last)) 0 = c.permissions.text :=
    c.wordAt_line gap sharp rfl
  rw [Entry.ofLine_of_anchor rfl (c.anchor?_line gap sharp few clear) hrest hsizeWord hdated, hfirst,
    Entry.kindOf_token, UInt64.ofNat_toNat]
  rfl

end Columns

end FtpControl

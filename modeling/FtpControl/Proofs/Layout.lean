import FtpControl.Proofs.Columns

namespace FtpControl

structure Gap where
  text : List Char
  nonempty : text ≠ []
  blank : blankText text = true
  one_line : '\n' ∉ text

def EndsSharp (cs : List Char) : Prop :=
  ∃ front last, cs = front ++ [last] ∧ isBlank last = false

/-- A row of a listing: the permissions, the number of links, the group if there is one, the size, the
date and the name, with the target if it is that of a link. -/
structure Row where
  permissions : Token
  known : ∃ c ∈ "-dlbcps".toList, ∃ rest, permissions.text = c :: rest
  links : Token
  group : Option Token
  size : UInt64
  sizeDigits : Numeral size.toNat
  date : Date
  day : Numeral date.day
  year : Numeral date.year.natAbs
  name : List Char
  target : Option (List Char)
  /-- The blanks between the columns, counted from the name back to the permissions. -/
  gap : Nat → Gap
  starts_sharp : ∃ first rest, name = first :: rest ∧ isBlank first = false
  ends_sharp : EndsSharp name
  one_line : '\n' ∉ name
  no_arrow : ¬arrow <:+: name
  linked : ∀ text, target = some text → EndsSharp text ∧ '\n' ∉ text ∧ ¬[' ', '-', '>'] <:+ name

/-- Columns with the gaps between them, and what stands behind the last gap. -/
def spread (gap : Nat → Gap) : List Token → List Char → List Char
  | [], last => last
  | token :: tokens, last => token.text ++ ((gap tokens.length).text ++ spread gap tokens last)

def Gap.blanks (gap : Gap) : Blanks :=
  ⟨gap.text, gap.nonempty, gap.blank⟩

theorem spread_eq (gap : Nat → Gap) (tokens : List Token) (last : List Char) :
    spread gap tokens last = compose (fun i => (gap i).blanks) tokens last := by
  induction tokens with
  | nil => rfl
  | cons token tokens ih =>
    rw [spread, compose, ih]
    rfl

/-- The blanks behind a sharp end are cut off as if nothing stood before them. -/
theorem EndsSharp.trimEnd_append {cs : List Char} (h : EndsSharp cs) (more : List Char) :
    trimEnd (cs ++ more) = cs ++ trimEnd more := by
  obtain ⟨front, last, rfl, hlast⟩ := h
  by_cases hblank : blankText more = true
  · rw [trimEnd_append_of_blank _ hblank, trimEnd_of_blank hblank, trimEnd_of_last hlast,
      List.append_nil]
  · exact FtpControl.trimEnd_append _ (by simpa using hblank)

namespace Row

def month (row : Row) : Token :=
  .ofChars (abbreviation row.date.month).toList
    (by
      obtain ⟨low, high⟩ := row.date.month_bounds
      interval_cases row.date.month <;> decide)
    (by
      obtain ⟨low, high⟩ := row.date.month_bounds
      interval_cases row.date.month <;> decide)

/-- The year as a column, with a sign if it is negative. -/
def yearToken (row : Row) : Token where
  text := (if row.date.year < 0 then ['-'] else []) ++ row.year.digits
  nonempty := by simp [row.year.nonempty]
  unbroken c hc := by
    rcases List.mem_append.mp hc with hc | hc
    · split at hc
      next =>
        rw [List.mem_singleton.mp hc]
        decide
      next => simp at hc
    · exact isBlank_of_isDigit (row.year.digit c hc)

def tokens (row : Row) : List Token :=
  [row.permissions, row.links] ++ row.group.toList ++
    [row.sizeDigits.token, row.month, row.day.token, row.yearToken]

def last (row : Row) : List Char :=
  row.name ++
    match row.target with
    | some target => arrow ++ target
    | none => []

def line (row : Row) : List Char :=
  spread row.gap row.tokens row.last

/-- What the row tells. -/
def entry (row : Row) : Entry where
  name := String.ofList row.name
  kind := if row.target.isSome then .link else row.permissions.kind
  size := row.size
  modified := ⟨row.date, ⟨0, 0, 0, 0, TimeOfDay.midnight.valid⟩⟩

variable (row : Row)

theorem integer?_yearToken :
    integer? (Nat.pow 2 31) row.yearToken.text = some row.date.year := by
  obtain ⟨⟨low, high⟩, _⟩ := row.date.valid
  have hbound : row.date.year.natAbs < Nat.pow 2 31 := by
    simp only [minYear, maxYear] at low high
    have hpow : Nat.pow 2 31 = 2147483648 := rfl
    omega
  by_cases hneg : row.date.year < 0
  · have htext : row.yearToken.text = '-' :: row.year.digits := by
      simp [yearToken, hneg]
    have hvalue : -(row.date.year.natAbs : Int) = row.date.year := by omega
    rw [htext]
    simp only [integer?, row.year.decimal, row.year.value, hbound.le, and_self, ↓reduceIte, hvalue]
  · have htext : row.yearToken.text = row.year.digits := by
      simp [yearToken, hneg]
    have hvalue : (row.date.year.natAbs : Int) = row.date.year := by omega
    rw [htext]
    unfold integer?
    split
    next ds hminus =>
      have hdigit := row.year.digit '-' (by simp [hminus])
      simp [isDigit] at hdigit
    next => simp [row.year.natural? hbound, hvalue]

theorem moment_eq (today : Date) :
    Entry.moment today row.month.text row.day.token.text row.yearToken.text =
      .ok ⟨row.date, ⟨0, 0, 0, 0, TimeOfDay.midnight.valid⟩⟩ := by
  have hmonth : month? row.month.text = some row.date.month := month?_abbreviation row.date.month_bounds
  have hday : natural? (Nat.pow 2 32) row.day.token.text = some row.date.day := by
    refine row.day.natural? ?_
    have hmost := row.date.day_bounds
    have hpow : Nat.pow 2 32 = 4294967296 := rfl
    omega
  have hclock : ':' ∉ row.yearToken.text := by
    intro hm
    rcases List.mem_append.mp hm with hm | hm
    · split at hm <;> simp at hm
    · have hdigit := row.year.digit ':' hm
      simp [isDigit] at hdigit
  have hdate : Date.ofNumbers? row.date.year row.date.month row.date.day = some row.date := by
    rw [Date.ofNumbers?, dif_pos row.date.valid]
  simp [Entry.moment, hmonth, hday, hclock, row.integer?_yearToken, hdate]
  rfl

/-- The first arrow in the last column of a row is the one in front of the target. -/
theorem beforeArrow?_last :
    Entry.beforeArrow? row.last = row.target.map fun _ => row.name := by
  unfold last
  cases ht : row.target with
  | none =>
    rw [List.append_nil]
    exact Entry.beforeArrow?_eq_none row.no_arrow
  | some target =>
    obtain ⟨_, _, hend⟩ := row.linked target ht
    exact Entry.beforeArrow?_append row.no_arrow hend target

def columns (today : Date) : Columns today where
  permissions := row.permissions
  links := row.links
  owners := row.group.toList
  size := row.size
  sizeDigits := row.sizeDigits
  month := row.month
  day := row.day.token
  clock := row.yearToken
  modified := ⟨row.date, ⟨0, 0, 0, 0, TimeOfDay.midnight.valid⟩⟩
  dated := row.moment_eq today

/-- What is read from a row is what the row tells, whatever day it is. -/
theorem ofLine_line (today : Date) : Entry.ofLine today row.line = .ok row.entry := by
  obtain ⟨first, rest, hname, hfirst⟩ := row.starts_sharp
  have sharp : StartsSharp row.last := ⟨first, rest ++ _, by rw [last, hname]; rfl, hfirst⟩
  have few : (row.columns today).owners.length ≤ 1 := by
    change row.group.toList.length ≤ 1
    cases row.group <;> simp
  have clear : ¬(row.columns today).Misleading := by
    rintro ⟨owner, group, howners, _⟩
    simp [howners] at few
  have hline : row.line = (row.columns today).line (fun i => (row.gap i).blanks) row.last :=
    spread_eq row.gap row.tokens row.last
  have hentry : (row.columns today).entry row.last = row.entry := by
    unfold Columns.entry
    rw [row.beforeArrow?_last]
    cases ht : row.target with
    | none => simp [entry, last, ht, columns]
    | some target => simp [entry, ht, columns]
  rw [hline, Columns.ofLine_line _ _ sharp (few.trans (by decide)) clear, hentry]

theorem one_line_spread (gap : Nat → Gap) (tokens : List Token) {last : List Char}
    (h : '\n' ∉ last) : '\n' ∉ spread gap tokens last := by
  induction tokens with
  | nil => exact h
  | cons token tokens ih =>
    have htoken : '\n' ∉ token.text := fun hm => absurd (token.unbroken _ hm) (by decide)
    have hgap := (gap tokens.length).one_line
    simp [spread, htoken, hgap, ih]

theorem line_one_line : '\n' ∉ row.line := by
  refine one_line_spread row.gap row.tokens ?_
  intro hm
  rcases List.mem_append.mp hm with hm | hm
  · exact row.one_line hm
  · cases ht : row.target with
    | none => simp [ht] at hm
    | some target =>
      obtain ⟨_, hone, _⟩ := row.linked target ht
      simp [ht, arrow, hone] at hm

theorem exists_front (gap : Nat → Gap) (tokens : List Token) (last : List Char) :
    ∃ front, spread gap tokens last = front ++ last := by
  induction tokens with
  | nil => exact ⟨[], rfl⟩
  | cons token tokens ih =>
    obtain ⟨front, hfront⟩ := ih
    refine ⟨token.text ++ ((gap tokens.length).text ++ front), ?_⟩
    simp [spread, hfront]

theorem trimEnd_line : trimEnd row.line = row.line := by
  have hsharp : EndsSharp row.last := by
    unfold last
    cases ht : row.target with
    | none => simpa using row.ends_sharp
    | some target =>
      obtain ⟨⟨front, c, rfl, hc⟩, _⟩ := row.linked target ht
      exact ⟨row.name ++ (arrow ++ front), c, by simp, hc⟩
  obtain ⟨front, hfront⟩ := exists_front row.gap row.tokens row.last
  obtain ⟨front', c, hlast, hc⟩ := hsharp
  rw [line, hfront, hlast, ← List.append_assoc]
  exact trimEnd_of_last hc

theorem line_eq_cons : ∃ c ∈ "-dlbcps".toList, ∃ rest, row.line = c :: rest := by
  obtain ⟨c, hc, rest, hpermissions⟩ := row.known
  refine ⟨c, hc, ?_⟩
  simp [line, tokens, spread, hpermissions]

end Row

end FtpControl

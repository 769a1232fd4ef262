import FtpControl.Proofs.Columns
import Mathlib.Order.Bounds.Defs

namespace FtpControl

theorem Date.le_iff (a b : Date) : a ≤ b ↔ a.year < b.year ∨
    a.year = b.year ∧ (a.month < b.month ∨ a.month = b.month ∧ a.day ≤ b.day) := by
  obtain ⟨_, hamonth⟩ := a.month_bounds
  obtain ⟨_, hbmonth⟩ := b.month_bounds
  obtain ⟨_, haday⟩ := a.day_bounds
  obtain ⟨_, hbday⟩ := b.day_bounds
  change a.rank ≤ b.rank ↔ _
  unfold rank
  omega

theorem daysInMonth_eq {month : Nat} (h : month ≠ 2) (year year' : Int) :
    daysInMonth year month = daysInMonth year' month := by
  unfold daysInMonth
  split <;> simp_all

theorem daysInMonth_february (year : Int) : 28 ≤ daysInMonth year 2 ∧ daysInMonth year 2 ≤ 29 := by
  unfold daysInMonth
  split <;> simp_all
  split <;> omega

theorem ValidDate.other_year {year year' : Int} {month day : Nat} (h : ValidDate year month day)
    (common : ¬(month = 2 ∧ day = 29)) (range : minYear ≤ year' ∧ year' ≤ maxYear) :
    ValidDate year' month day := by
  obtain ⟨_, hday, hle⟩ := h
  refine ⟨range, hday, ?_⟩
  by_cases hmonth : month = 2
  · subst hmonth
    have := daysInMonth_february year
    have := daysInMonth_february year'
    omega
  · rwa [daysInMonth_eq hmonth year' year]

namespace Date

theorem ofNumbers?_eq_some {year : Int} {month day : Nat} {d : Date} :
    ofNumbers? year month day = some d ↔ d.year = year ∧ d.month = month ∧ d.day = day := by
  unfold ofNumbers?
  constructor
  · intro h
    split at h
    next =>
      cases h
      exact ⟨rfl, rfl, rfl⟩
    next => simp at h
  · rintro ⟨rfl, rfl, rfl⟩
    rw [dif_pos d.valid]

theorem ofNumbers?_eq_none {year : Int} {month day : Nat} :
    ofNumbers? year month day = none ↔ ¬ValidDate year month day := by
  simp [ofNumbers?]

theorem inYear?_cases {year : Int} {month day : Nat} {d : Date} (h : inYear? year month day = some d) :
    d.year = year ∧ d.month = month ∧ d.day = day ∨
      ¬ValidDate year month day ∧ (month = 2 ∧ day = 29) ∧ d.year = year ∧ d.month = 2 ∧ d.day = 28 := by
  unfold inYear? at h
  cases hd : ofNumbers? year month day with
  | some other =>
    rw [hd] at h
    obtain rfl : other = d := Option.some.inj h
    exact Or.inl (ofNumbers?_eq_some.mp hd)
  | none =>
    rw [hd] at h
    change (if month = 2 ∧ day = 29 then ofNumbers? year 2 28 else none) = some d at h
    split at h
    next leap => exact Or.inr ⟨ofNumbers?_eq_none.mp hd, leap, ofNumbers?_eq_some.mp h⟩
    next => simp at h

/-- Every year has such a day, or the 28 February that stands for it. -/
theorem exists_inYear? {year : Int} (range : minYear ≤ year ∧ year ≤ maxYear) (d : Date) :
    ∃ d', inYear? year d.month d.day = some d' := by
  unfold inYear?
  cases h : ofNumbers? year d.month d.day with
  | some d' => exact ⟨d', rfl⟩
  | none =>
    have leap : d.month = 2 ∧ d.day = 29 := by
      by_contra common
      exact ofNumbers?_eq_none.mp h (d.valid.other_year common range)
    have valid : ValidDate year 2 28 := ⟨range, by decide, (daysInMonth_february year).1⟩
    exact ⟨⟨year, 2, 28, valid⟩, by simp [leap, ofNumbers?, valid]⟩

end Date

namespace Entry

def daysUpTo (today : Date) (month day : Nat) : Set Date :=
  {d | d.month = month ∧ d.day = day ∧ d ≤ today}

variable {today d : Date} {month day : Nat}

theorem le_of_year {d d' : Date} (hmonth : d.month = d'.month) (hday : d.day = d'.day)
    (h : d.year ≤ d'.year) : d ≤ d' := by
  rw [Date.le_iff]
  omega

theorem recentDate?_cases (h : recentDate? today month day = some d) :
    (d.year = today.year ∧ d.month = month ∧ d.day = day ∧ d ≤ today) ∨
      (∀ d' ∈ daysUpTo today month day, d'.year ≠ today.year) ∧
        Date.inYear? (today.year - 1) month day = some d := by
  unfold recentDate? at h
  split at h
  next other hother =>
    obtain ⟨hyear, hmonth, hday⟩ := Date.ofNumbers?_eq_some.mp hother
    split at h
    next hle =>
      obtain rfl := Option.some.inj h
      exact Or.inl ⟨hyear, hmonth, hday, hle⟩
    next hlate =>
      refine Or.inr ⟨?_, h⟩
      rintro d' ⟨hmonth', hday', hle⟩ hyear'
      have hsame := Date.ofNumbers?_eq_some.mpr ⟨hyear', hmonth', hday'⟩
      obtain rfl := Option.some.inj (hother.symm.trans hsame)
      exact hlate hle
  next hnone =>
    refine Or.inr ⟨?_, h⟩
    rintro d' ⟨hmonth', hday', _⟩ hyear'
    have hsame := Date.ofNumbers?_eq_some.mpr ⟨hyear', hmonth', hday'⟩
    simp [hnone] at hsame

/-- The day that is found is the latest of its month and number up to today, unless neither this year nor
the last one has such a day. -/
theorem recentDate?_latest (h : recentDate? today month day = some d) :
    d ≤ today ∧ (IsGreatest (daysUpTo today month day) d ∧ today.year - 1 ≤ d.year ∨
      (∀ d' ∈ daysUpTo today month day, d'.year < today.year - 1) ∧ (month = 2 ∧ day = 29) ∧
        d.year = today.year - 1 ∧ d.month = 2 ∧ d.day = 28) := by
  have before : ∀ d' ∈ daysUpTo today month day, d'.year ≤ today.year := by
    rintro d' ⟨_, _, hle⟩
    rw [Date.le_iff] at hle
    omega
  have last : d.year = today.year - 1 → d ≤ today := fun hyear => by
    rw [Date.le_iff]
    omega
  rcases recentDate?_cases h with ⟨hyear, hmonth, hday, hle⟩ | ⟨elsewhere, hprevious⟩
  · refine ⟨hle, Or.inl ⟨⟨⟨hmonth, hday, hle⟩, ?_⟩, by omega⟩⟩
    rintro d' hd'
    exact le_of_year (hd'.1.trans hmonth.symm) (hd'.2.1.trans hday.symm) (hyear ▸ before d' hd')
  · have earlier : ∀ d' ∈ daysUpTo today month day, d'.year ≤ today.year - 1 := by
      intro d' hd'
      have := before d' hd'
      have := elsewhere d' hd'
      omega
    rcases Date.inYear?_cases hprevious with ⟨hyear, hmonth, hday⟩ | ⟨missing, leap, hyear, hshort⟩
    · refine ⟨last hyear, Or.inl ⟨⟨⟨hmonth, hday, last hyear⟩, ?_⟩, hyear.ge⟩⟩
      rintro d' hd'
      exact le_of_year (hd'.1.trans hmonth.symm) (hd'.2.1.trans hday.symm) (hyear ▸ earlier d' hd')
    · refine ⟨last hyear, Or.inr ⟨?_, leap, hyear, hshort⟩⟩
      intro d' hd'
      have hle := earlier d' hd'
      have hne : d'.year ≠ today.year - 1 := by
        intro hyear'
        refine missing ?_
        rw [← hyear', ← hd'.1, ← hd'.2.1]
        exact d'.valid
      omega

/-- A day is found where the calendar has one of this month and number in any year. -/
theorem exists_recentDate? (early : minYear < today.year) (d : Date) :
    ∃ d', recentDate? today d.month d.day = some d' := by
  have range : minYear ≤ today.year - 1 ∧ today.year - 1 ≤ maxYear := by
    obtain ⟨⟨_, high⟩, _⟩ := today.valid
    omega
  have previous := Date.exists_inYear? range d
  unfold recentDate?
  split
  next other _ =>
    split
    next => exact ⟨other, rfl⟩
    next => exact previous
  next => exact previous

def clockWord (hour : Fin 24) (minute : Fin 60) : List Char :=
  (padded 2 hour).toList ++ ':' :: (padded 2 minute).toList

def clockTime (hour : Fin 24) (minute : Fin 60) : TimeOfDay :=
  ⟨hour, minute, 0, 0, by omega⟩

theorem padded_two {n : Nat} (h : n < 60) : ∃ a b, (padded 2 n).toList = [a, b] ∧
    isDigit a = true ∧ isDigit b = true ∧ ofDigits [a, b] = n := by
  have all : ∀ n < 60, (padded 2 n).toList = [Nat.digitChar (n / 10), Nat.digitChar (n % 10)] ∧
      isDigit (Nat.digitChar (n / 10)) = true ∧ isDigit (Nat.digitChar (n % 10)) = true ∧
        ofDigits [Nat.digitChar (n / 10), Nat.digitChar (n % 10)] = n := by decide +kernel
  exact ⟨_, _, all n h⟩

theorem clock?_clockWord (hour : Fin 24) (minute : Fin 60) :
    clockShape (clockWord hour minute) = true ∧
      clock? (clockWord hour minute) = some (clockTime hour minute) := by
  obtain ⟨a, b, hhour, ha, hb, habs⟩ := padded_two (n := hour) (by omega)
  obtain ⟨c, d, hminute, hc, hd, hcds⟩ := padded_two (n := minute) (by omega)
  have hword : clockWord hour minute = [a, b, ':', c, d] := by
    rw [clockWord, hhour, hminute]
    rfl
  have hlt : (hour : Nat) < 24 := hour.isLt
  have hlt' : (minute : Nat) < 60 := minute.isLt
  rw [hword]
  constructor
  · simp [clockShape, isDecimalDigit_of_isDigit, ha, hb, hc, hd]
  · simp [clock?, ha, hb, hc, hd, habs, hcds, TimeOfDay.ofNumbers?, hlt, hlt', clockTime]

variable {monthWord : List Char} {n : Nat}

theorem moment_clockWord (hmonth : month? monthWord = some month) (num : Numeral n)
    (hn : n < Nat.pow 2 32) (hour : Fin 24) (minute : Fin 60) :
    moment today monthWord num.digits (clockWord hour minute) =
      match recentDate? today month n with
      | some d => .ok ⟨d, clockTime hour minute⟩
      | none => .error .date := by
  obtain ⟨shape, clock⟩ := clock?_clockWord hour minute
  have colon : (clockWord hour minute).contains ':' = true := by simp [clockWord]
  simp only [moment, hmonth, num.natural? hn, colon, shape, clock, ↓reduceIte]
  cases recentDate? today month n <;> rfl

theorem moment_day_overflow (hmonth : month? monthWord = some month) (num : Numeral n)
    (hn : Nat.pow 2 32 ≤ n) (clock : List Char) :
    moment today monthWord num.digits clock = .error (.day num.digits) := by
  simp only [moment, hmonth, num.natural?_of_le hn]
  rfl

/-- A month, a number and a clock make a moment exactly where the calendar has such a day in some year.
The day is the latest one up to today if this year or the last one has it; otherwise it is a 29 February,
and the 28 February of last year stands for it. -/
theorem latest_day_of_clock (early : minYear < today.year) (hmonth : month? monthWord = some month)
    (num : Numeral n) (hour : Fin 24) (minute : Fin 60) :
    ((∃ t, moment today monthWord num.digits (clockWord hour minute) = .ok t) ↔
      ∃ d : Date, d.month = month ∧ d.day = n) ∧
    ∀ t, moment today monthWord num.digits (clockWord hour minute) = .ok t →
      t.date ≤ today ∧
      (t.time.hour = hour ∧ t.time.minute = minute ∧ t.time.second = 0 ∧ t.time.nano = 0) ∧
      ((∃ d ∈ daysUpTo today month n, today.year - 1 ≤ d.year) →
        IsGreatest (daysUpTo today month n) t.date) ∧
      ((¬∃ d ∈ daysUpTo today month n, today.year - 1 ≤ d.year) → (month = 2 ∧ n = 29) ∧
        t.date.year = today.year - 1 ∧ t.date.month = 2 ∧ t.date.day = 28) := by
  by_cases hn : n < Nat.pow 2 32
  · rw [moment_clockWord hmonth num hn]
    refine ⟨⟨?_, ?_⟩, ?_⟩
    · rintro ⟨t, ht⟩
      split at ht
      next d hd =>
        obtain ⟨_, ⟨⟨⟨hm, hday, _⟩, _⟩, _⟩ | ⟨_, ⟨rfl, rfl⟩, _⟩⟩ := recentDate?_latest hd
        · exact ⟨d, hm, hday⟩
        · exact ⟨⟨2024, 2, 29, by decide⟩, rfl, rfl⟩
      next => simp at ht
    · rintro ⟨d, rfl, rfl⟩
      obtain ⟨d', hd'⟩ := exists_recentDate? early d
      rw [hd']
      exact ⟨_, rfl⟩
    · intro t ht
      split at ht
      next d hd =>
        obtain rfl := Except.ok.inj ht
        obtain ⟨hle, latest⟩ := recentDate?_latest hd
        refine ⟨hle, ⟨rfl, rfl, rfl, rfl⟩, ?_, ?_⟩
        · rintro ⟨d', hd', hyear⟩
          rcases latest with ⟨greatest, _⟩ | ⟨earlier, _⟩
          · exact greatest
          · exact absurd (earlier d' hd') (not_lt.mpr hyear)
        · intro none
          rcases latest with ⟨greatest, hyear⟩ | ⟨_, short⟩
          · exact absurd ⟨d, greatest.1, hyear⟩ none
          · exact short
      next => simp at ht
  · have hbound : Nat.pow 2 32 = 4294967296 := rfl
    rw [moment_day_overflow hmonth num (not_lt.mp hn)]
    refine ⟨⟨?_, ?_⟩, ?_⟩
    · rintro ⟨t, ht⟩
      simp at ht
    · rintro ⟨d, _, rfl⟩
      have := d.day_bounds
      omega
    · intro t ht
      simp at ht

/-- Neither 2022 nor 2023 has a 29 February. -/
theorem leap_day_of_clock : ∃ t, minYear < 2023 ∧ month? "fEB".toList = some 2 ∧
    moment ⟨2023, 3, 1, by decide⟩ "fEB".toList "029".toList "23:59".toList = .ok t ∧
    t.date = ⟨2022, 2, 28, by decide⟩ ∧ t.time.clockText = "23:59:00" := by
  let today : Date := ⟨2023, 3, 1, by decide⟩
  let num : Numeral 29 := ⟨"029".toList, by decide, by decide⟩
  have hmonth : month? "fEB".toList = some 2 := by decide +kernel
  have none : ¬∃ d ∈ daysUpTo today 2 29, today.year - 1 ≤ d.year := by
    rintro ⟨⟨year, month, day, valid⟩, ⟨rfl, rfl, hle⟩, hyear⟩
    have hlow : 2022 ≤ year := hyear
    have hhigh : year ≤ 2023 := by
      rcases (Date.le_iff _ _).mp hle with hlt | ⟨heq, _⟩
      · exact Int.le_of_lt hlt
      · exact Int.le_of_eq heq
    have hvalid := valid.2.2
    interval_cases year <;> simp [daysInMonth, leapYear] at hvalid
  have early : minYear < today.year := by decide
  obtain ⟨hiff, hdate⟩ := latest_day_of_clock early hmonth num 23 59
  obtain ⟨t, ht⟩ := hiff.mpr ⟨⟨2024, 2, 29, by decide⟩, rfl, rfl⟩
  obtain ⟨_, ⟨hhour, hminute, hsecond, _⟩, _, fallback⟩ := hdate t ht
  obtain ⟨_, hyear, hm, hday⟩ := fallback none
  refine ⟨t, early, hmonth, ht, ?_, ?_⟩
  · obtain ⟨⟨year, month, day, _⟩, _⟩ := t
    obtain ⟨rfl, rfl, rfl⟩ : year = 2022 ∧ month = 2 ∧ day = 28 := ⟨hyear, hm, hday⟩
    rfl
  · rw [TimeOfDay.clockText, hhour, hminute, hsecond]
    decide +kernel

end Entry

end FtpControl

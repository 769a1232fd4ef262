import FtpControl.Proofs.RecentDate

namespace FtpControl

def TimeOfDay.rank (t : TimeOfDay) : Nat :=
  ((60 * t.hour + t.minute) * 61 + t.second) * 1000000000 + t.nano

instance : LE Timestamp :=
  ⟨fun a b => a.date ≤ b.date ∧ (b.date ≤ a.date → a.time.rank ≤ b.time.rank)⟩

theorem Timestamp.le_of_date {a b : Timestamp} (date : a.date ≤ b.date) (time : a.time = b.time) :
    a ≤ b :=
  ⟨date, fun _ => by rw [time]⟩

theorem Date.le_refl (d : Date) : d ≤ d :=
  Int.le_refl d.rank

theorem Date.le_trans {a b c : Date} (h : a ≤ b) (h' : b ≤ c) : a ≤ c :=
  Int.le_trans h h'

namespace Entry

variable {today later d d' : Date} {month day : Nat}

theorem daysUpTo_subset (h : today ≤ later) : daysUpTo today month day ⊆ daysUpTo later month day :=
  fun _ ⟨hmonth, hday, hle⟩ => ⟨hmonth, hday, Date.le_trans hle h⟩

/-- Whether a day is found depends on the calendar alone. -/
theorem recentDate?_iff (early : minYear < today.year) :
    (∃ d, recentDate? today month day = some d) ↔ ∃ d : Date, d.month = month ∧ d.day = day := by
  constructor
  · rintro ⟨d, hd⟩
    obtain ⟨_, ⟨⟨⟨hmonth, hday, _⟩, _⟩, _⟩ | ⟨_, ⟨rfl, rfl⟩, _⟩⟩ := recentDate?_latest hd
    · exact ⟨d, hmonth, hday⟩
    · exact ⟨⟨2024, 2, 29, by decide⟩, rfl, rfl⟩
  · rintro ⟨d, rfl, rfl⟩
    exact exists_recentDate? early d

/-- The later the day of the listing, the later the day that is found. -/
theorem recentDate?_le (h : today ≤ later) (hd : recentDate? today month day = some d)
    (hd' : recentDate? later month day = some d') : d ≤ d' := by
  have years : today.year ≤ later.year := by
    rw [Date.le_iff] at h
    omega
  obtain ⟨_, ⟨greatest, _⟩ | ⟨_, ⟨hmonth, hday⟩, hyear, hshort⟩⟩ := recentDate?_latest hd
  · have found : d ∈ daysUpTo later month day := daysUpTo_subset h greatest.1
    obtain ⟨_, ⟨greatest', _⟩ | ⟨earlier, _, hyear', _⟩⟩ := recentDate?_latest hd'
    · exact greatest'.2 found
    · have := earlier d found
      rw [Date.le_iff]
      omega
  · -- The 28 February stands in for a day that only a later year has.
    obtain ⟨_, ⟨⟨⟨hmonth', hday', _⟩, _⟩, hyear'⟩ | ⟨_, _, hyear', hshort'⟩⟩ := recentDate?_latest hd'
    · rw [Date.le_iff]
      omega
    · rw [Date.le_iff]
      omega

/-- The day of the listing matters only where a clock stands in the place of the year, and then only for
the day that is found. -/
theorem moment_cases (monthWord dayWord clockWord : List Char) :
    (∃ outcome, ∀ today, moment today monthWord dayWord clockWord = outcome) ∨
      ':' ∈ clockWord ∧ ∃ month day time, ∀ today, moment today monthWord dayWord clockWord =
        (recentDate? today month day).elim (.error .date) fun date => .ok ⟨date, time⟩ := by
  cases hmonth : month? monthWord with
  | none => exact Or.inl ⟨.error .month, fun _ => by simp only [moment, hmonth]; rfl⟩
  | some month =>
    cases hday : natural? (Nat.pow 2 32) dayWord with
    | none => exact Or.inl ⟨.error (.day dayWord), fun _ => by simp only [moment, hmonth, hday]; rfl⟩
    | some day =>
      by_cases colon : clockWord.contains ':' = true
      · by_cases shape : clockShape clockWord = true
        · cases hclock : clock? clockWord with
          | none =>
            refine Or.inl ⟨.error .date, fun _ => ?_⟩
            simp only [moment, hmonth, hday, colon, shape, hclock, ↓reduceIte]
            rfl
          | some time =>
            refine Or.inr ⟨by simpa using colon, month, day, time, fun today => ?_⟩
            simp only [moment, hmonth, hday, colon, shape, hclock, ↓reduceIte]
            cases recentDate? today month day <;> rfl
        · refine Or.inl ⟨.error .clock, fun _ => ?_⟩
          simp only [moment, hmonth, hday, colon, shape, ↓reduceIte]
          rfl
      · cases hyear : integer? (Nat.pow 2 31) clockWord with
        | none =>
          refine Or.inl ⟨.error (.year clockWord), fun _ => ?_⟩
          simp only [moment, hmonth, hday, colon, hyear, Bool.false_eq_true, ↓reduceIte]
          rfl
        | some year =>
          refine Or.inl ⟨(Date.ofNumbers? year month day).elim (.error .date)
            fun date => .ok ⟨date, .midnight⟩, fun _ => ?_⟩
          simp only [moment, hmonth, hday, colon, hyear, Bool.false_eq_true, ↓reduceIte]
          cases Date.ofNumbers? year month day <;> rfl

/-- As the days pass, words that make a moment go on to make one, and all others are refused for the same
reason as before. The moment never goes back, keeps its time of day, and stays where it is if the words
name the year. -/
theorem moment_never_goes_back (early : minYear < today.year) (h : today ≤ later)
    (monthWord dayWord clockWord : List Char) :
    (∃ fault, moment today monthWord dayWord clockWord = .error fault ∧
      moment later monthWord dayWord clockWord = .error fault) ∨
    ∃ t t', moment today monthWord dayWord clockWord = .ok t ∧
      moment later monthWord dayWord clockWord = .ok t' ∧ t ≤ t' ∧ t.time = t'.time ∧
        (':' ∉ clockWord → t = t') := by
  have early' : minYear < later.year := by
    rw [Date.le_iff] at h
    omega
  rcases moment_cases monthWord dayWord clockWord with ⟨outcome, same⟩ | ⟨colon, month, day, time, found⟩
  · cases outcome with
    | error fault => exact Or.inl ⟨fault, same today, same later⟩
    | ok t =>
      exact Or.inr ⟨t, t, same today, same later, Timestamp.le_of_date t.date.le_refl rfl, rfl,
        fun _ => rfl⟩
  · rw [found today, found later]
    have both : (∃ d, recentDate? today month day = some d) ↔ ∃ d, recentDate? later month day = some d :=
      (recentDate?_iff early).trans (recentDate?_iff early').symm
    cases hd : recentDate? today month day with
    | none =>
      have hd' : recentDate? later month day = none := by
        rw [Option.eq_none_iff_forall_ne_some]
        intro d' hd'
        obtain ⟨d, hsome⟩ := both.mpr ⟨d', hd'⟩
        rw [hd] at hsome
        cases hsome
      exact Or.inl ⟨.date, rfl, by rw [hd']; rfl⟩
    | some d =>
      obtain ⟨d', hd'⟩ := both.mp ⟨d, hd⟩
      refine Or.inr ⟨⟨d, time⟩, ⟨d', time⟩, rfl, by rw [hd']; rfl, ?_, rfl, fun none => ?_⟩
      · exact Timestamp.le_of_date (recentDate?_le h hd hd') rfl
      · exact absurd colon none

/-- On 28 February 2024 neither that year nor the last one has had a 29 February; a year later the last one
has. -/
theorem leap_day_moves_on :
    ∃ t t', minYear < 2024 ∧ (⟨2024, 2, 28, by decide⟩ : Date) ≤ ⟨2025, 3, 1, by decide⟩ ∧
      moment ⟨2024, 2, 28, by decide⟩ "Feb".toList "29".toList "12:00".toList = .ok t ∧
      moment ⟨2025, 3, 1, by decide⟩ "Feb".toList "29".toList "12:00".toList = .ok t' ∧
      t.date = ⟨2023, 2, 28, by decide⟩ ∧ t'.date = ⟨2024, 2, 29, by decide⟩ ∧ t ≤ t' := by
  have h : (⟨2024, 2, 28, by decide⟩ : Date) ≤ ⟨2025, 3, 1, by decide⟩ := by decide
  have before : moment ⟨2024, 2, 28, by decide⟩ "Feb".toList "29".toList "12:00".toList =
      .ok ⟨⟨2023, 2, 28, by decide⟩, ⟨12, 0, 0, 0, by decide⟩⟩ := by decide +kernel
  have after : moment ⟨2025, 3, 1, by decide⟩ "Feb".toList "29".toList "12:00".toList =
      .ok ⟨⟨2024, 2, 29, by decide⟩, ⟨12, 0, 0, 0, by decide⟩⟩ := by decide +kernel
  rcases moment_never_goes_back (by decide) h "Feb".toList "29".toList "12:00".toList with
    ⟨fault, refused, _⟩ | ⟨t, t', ht, ht', hle, _⟩
  · rw [before] at refused
    cases refused
  · rw [before] at ht
    rw [after] at ht'
    cases ht
    cases ht'
    exact ⟨_, _, by decide, h, before, after, rfl, rfl, hle⟩

end Entry

end FtpControl

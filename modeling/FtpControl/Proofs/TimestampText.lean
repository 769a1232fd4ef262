import FtpControl.Calendar.Timestamp
import FtpControl.Proofs.Columns

namespace FtpControl

theorem padded_toList (width n : Nat) : (padded width n).toList =
    List.replicate (width - (Nat.toDigits 10 n).length) '0' ++ Nat.toDigits 10 n := by
  rw [padded, Nat.toString_eq_ofList_toDigits]
  simp

theorem ofDigits_zeros (k : Nat) (ds : List Char) :
    ofDigits (List.replicate k '0' ++ ds) = ofDigits ds := by
  induction k with
  | zero => rfl
  | succ k ih => rw [List.replicate_succ, List.cons_append, ← ih]; rfl

namespace Numeral

def padded (width n : Nat) : Numeral n where
  digits := (FtpControl.padded width n).toList
  decimal := by
    have hall : (Nat.toDigits 10 n).all isDigit = true := List.all_eq_true.mpr (ofNat n).digit
    rw [padded_toList]
    simp [allDigits, Nat.toDigits_ne_nil, hall, isDigit]
  value := by
    rw [padded_toList, ofDigits_zeros]
    exact (ofNat n).value

theorem padded_digits (width n : Nat) :
    (padded width n).digits = (FtpControl.padded width n).toList := by
  rw [padded]

theorem length_padded {width n : Nat} (hwidth : 0 < width) (h : n < 10 ^ width) :
    (padded width n).digits.length = width := by
  have hlength := (Nat.length_toDigits_le_iff (by decide) hwidth).mpr h
  simp only [padded, padded_toList, List.length_append, List.length_replicate]
  omega

variable {n : Nat}

theorem isDigit_of_append (num : Numeral n) {c : Char} {rest cs : List Char}
    (h : num.digits ++ rest = c :: cs) : isDigit c = true := by
  cases hdigits : num.digits with
  | nil => exact absurd hdigits num.nonempty
  | cons d ds =>
    rw [hdigits, List.cons_append] at h
    exact num.digit c (by simp [hdigits, (List.cons.inj h).1])

theorem trimStart_append (num : Numeral n) (rest : List Char) :
    trimStart (num.digits ++ rest) = num.digits ++ rest := by
  cases hdigits : num.digits with
  | nil => exact absurd hdigits num.nonempty
  | cons d ds =>
    have hblank := isBlank_of_isDigit (num.digit d (by simp [hdigits]))
    simp [trimStart, hblank]

theorem takeWhile_append (num : Numeral n) {rest : List Char}
    (h : ∀ c ∈ rest.head?, isDigit c = false) : (num.digits ++ rest).takeWhile isDigit = num.digits :=
  (span_digits num.digit h).1

theorem takeWhile_isDigit (num : Numeral n) : num.digits.takeWhile isDigit = num.digits := by
  simpa using @takeWhile_append n num [] nofun

end Numeral

namespace Timestamp

theorem takeNumber?_append {n width : Nat} (num : Numeral n) (h : num.digits.length = width)
    (rest : List Char) : takeNumber? width (num.digits ++ rest) = some (n, rest) := by
  have hne : num.digits.isEmpty = false := by simpa using num.nonempty
  rw [takeNumber?, num.trimStart_append, ← h, List.take_left, num.takeWhile_isDigit]
  simp [hne, num.value]

theorem takeMark?_cons {mark : Char} (h : isBlank mark = false) (rest : List Char) :
    takeMark? mark (mark :: rest) = some rest := by
  simp [takeMark?, trimStart, h]

/-- A year without a sign has four digits. -/
theorem takeYear?_digits {n : Nat} (num : Numeral n) (h : num.digits.length = 4) (rest : List Char) :
    takeYear? (num.digits ++ rest) = some ((n : Int), rest) := by
  have htake := takeNumber?_append num h rest
  have htrim := num.trimStart_append rest
  unfold takeYear?
  rw [htrim]
  split
  next hminus => exact absurd (num.isDigit_of_append hminus) (by decide)
  next hplus => exact absurd (num.isDigit_of_append hplus) (by decide)
  next => rw [htake]; rfl

theorem takeYear?_yearText (year : Int) (rest : List Char) :
    takeYear? ((yearText year).toList ++ '-' :: rest) = some (year, '-' :: rest) := by
  have hend : ∀ c ∈ ('-' :: rest).head?, isDigit c = false := by simp [isDigit]
  have hdigits : ∀ n, ((padded 4 n).toList ++ '-' :: rest).takeWhile isDigit = (padded 4 n).toList :=
    fun n => by
      rw [← Numeral.padded_digits]
      exact (Numeral.padded 4 n).takeWhile_append hend
  have hne : ∀ n, (padded 4 n).toList.isEmpty = false := fun n => by
    simpa only [Numeral.padded_digits, List.isEmpty_eq_false_iff] using (Numeral.padded 4 n).nonempty
  have hvalue : ∀ n, ofDigits (padded 4 n).toList = n := fun n => by
    rw [← Numeral.padded_digits, (Numeral.padded 4 n).value]
  unfold yearText
  split
  next hfour =>
    have hlength := @Numeral.length_padded 4 year.toNat (by decide) (by omega)
    have htake := takeYear?_digits (Numeral.padded 4 year.toNat) hlength ('-' :: rest)
    rw [Numeral.padded_digits] at htake
    rw [htake]
    simp; omega
  next =>
    split
    next hlate =>
      have hplus : isBlank '+' = false := by decide
      have hyear : ((year.toNat : Nat) : Int) = year := by omega
      simp [takeYear?, trimStart, hplus, hdigits, hne, hvalue, hyear]
    next hearly =>
      have hminus : isBlank '-' = false := by decide
      have hyear : -((year.natAbs : Nat) : Int) = year := by omega
      simp [takeYear?, trimStart, hminus, hdigits, hne, hvalue, hyear, -Nat.cast_natAbs]

theorem takeFraction?_fractionText {nano : Nat} (h : nano < 1000000000) :
    takeFraction? (TimeOfDay.fractionText nano).toList = some (nano, []) := by
  have fraction : ∀ width n, 0 < width → width ≤ 9 → n < 10 ^ width →
      takeFraction? ("." ++ padded width n).toList = some (n * 10 ^ (9 - width), []) := by
    intro width n hwidth hnine hn
    have hlength := Numeral.length_padded hwidth hn
    have hne : (Numeral.padded width n).digits.isEmpty = false := by
      simpa using (Numeral.padded width n).nonempty
    have htext : ("." ++ padded width n).toList = '.' :: (Numeral.padded width n).digits := by
      simp [Numeral.padded]
    have htake : (Numeral.padded width n).digits.take 9 = (Numeral.padded width n).digits :=
      List.take_of_length_le (by omega)
    have hdrop : (Numeral.padded width n).digits.drop width = [] := List.drop_of_length_le (by omega)
    rw [htext, takeFraction?, (Numeral.padded width n).takeWhile_isDigit]
    simp [hne, htake, (Numeral.padded width n).value, hlength, hdrop]
  unfold TimeOfDay.fractionText
  split
  next hzero => simp [hzero, takeFraction?]
  next =>
    split
    next =>
      rw [fraction 3 _ (by decide) (by decide) (by omega)]
      simp; omega
    next =>
      split
      next =>
        rw [fraction 6 _ (by decide) (by decide) (by omega)]
        simp; omega
      next => rw [fraction 9 _ (by decide) (by decide) (by omega)]; simp

/-- Two digits and the separator behind them. -/
theorem takeNumber?_two {n : Nat} (h : n < 100) (rest : List Char) :
    takeNumber? 2 ((padded 2 n).toList ++ rest) = some (n, rest) := by
  rw [← Numeral.padded_digits]
  exact takeNumber?_append _ (Numeral.length_padded (by decide) h) rest

theorem ofText?_text (t : Timestamp) : ofText? t.text = some t := by
  obtain ⟨date, time⟩ := t
  obtain ⟨hhour, hminute, hsecond, hnano⟩ := time.valid
  have hmonth := date.month_bounds
  have hday := date.day_bounds
  have hdate : Date.ofNumbers? date.year date.month date.day = some date := by
    simp [Date.ofNumbers?, date.valid]
  have htime : TimeOfDay.ofNumbers? time.hour time.minute time.second time.nano = some time := by
    simp [TimeOfDay.ofNumbers?, time.valid]
  have htext : (text ⟨date, time⟩).toList = (yearText date.year).toList ++ '-' ::
      ((padded 2 date.month).toList ++ '-' :: ((padded 2 date.day).toList ++ 'T' ::
        ((padded 2 time.hour).toList ++ ':' :: ((padded 2 time.minute).toList ++ ':' ::
          ((padded 2 time.second).toList ++ (TimeOfDay.fractionText time.nano).toList))))) := by
    simp [text, TimeOfDay.clockText]
  have hdash : isBlank '-' = false := by decide
  have hmark : isBlank 'T' = false := by decide
  have hcolon : isBlank ':' = false := by decide
  have hend : blankText [] = true := rfl
  simp only [ofText?, htext, bind, Option.bind, takeYear?_yearText, takeMark?_cons hdash,
    takeMark?_cons hmark, takeMark?_cons hcolon, takeFraction?_fractionText hnano, hend, ↓reduceIte,
    hdate, htime, takeNumber?_two (show date.month < 100 by omega),
    takeNumber?_two (show date.day < 100 by omega), takeNumber?_two (show time.hour < 100 by omega),
    takeNumber?_two (show time.minute < 100 by omega),
    takeNumber?_two (show time.second < 100 by omega)]

end Timestamp

end FtpControl

import FtpControl.Text

namespace FtpControl

def minYear : Int := -262143

def maxYear : Int := 262142

def leapYear (year : Int) : Bool :=
  year % 4 == 0 && (year % 100 != 0 || year % 400 == 0)

/-- The number of days of a month, none for a number that is no month. -/
def daysInMonth (year : Int) (month : Nat) : Nat :=
  match month with
  | 1 | 3 | 5 | 7 | 8 | 10 | 12 => 31
  | 4 | 6 | 9 | 11 => 30
  | 2 => if leapYear year then 29 else 28
  | _ => 0

def ValidDate (year : Int) (month day : Nat) : Prop :=
  (minYear ≤ year ∧ year ≤ maxYear) ∧ 1 ≤ day ∧ day ≤ daysInMonth year month

instance (year : Int) (month day : Nat) : Decidable (ValidDate year month day) :=
  inferInstanceAs (Decidable (_ ∧ _))

/-- A day of the calendar. -/
structure Date where
  year : Int
  month : Nat
  day : Nat
  valid : ValidDate year month day
  deriving DecidableEq, Repr

namespace Date

def ofNumbers? (year : Int) (month day : Nat) : Option Date :=
  if valid : ValidDate year month day then some ⟨year, month, day, valid⟩ else none

/-- A number that grows from day to day. -/
def rank (d : Date) : Int :=
  512 * d.year + 32 * d.month + d.day

instance : LE Date := ⟨fun a b => a.rank ≤ b.rank⟩

instance (a b : Date) : Decidable (a ≤ b) :=
  inferInstanceAs (Decidable (a.rank ≤ b.rank))

/-- The same day of another year; 29 February becomes 28 February where the year has none. -/
def inYear? (year : Int) (month day : Nat) : Option Date :=
  (ofNumbers? year month day).orElse fun _ =>
    if month = 2 ∧ day = 29 then ofNumbers? year 2 28 else none

end Date

def monthNames : List String :=
  ["Jan", "Feb", "Mar", "Apr", "May", "Jun", "Jul", "Aug", "Sep", "Oct", "Nov", "Dec"]

def month? (name : List Char) : Option Nat :=
  (monthNames.findIdx? (fun m => m.toList.map Char.toLower == name.map Char.toLower)).map (· + 1)

def monthName (month : Nat) : String :=
  monthNames.getD (month - 1) ""

/-- A year in four digits; outside of 0 to 9999 with a sign and at least four. -/
def yearText (year : Int) : String :=
  if 0 ≤ year ∧ year ≤ 9999 then padded 4 year.toNat
  else if 0 ≤ year then "+" ++ padded 4 year.toNat
  else "-" ++ padded 4 year.natAbs

end FtpControl

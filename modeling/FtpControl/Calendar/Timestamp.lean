import FtpControl.Calendar

namespace FtpControl

/-- A time of day; a 60th second is a leap second. -/
structure TimeOfDay where
  hour : Nat
  minute : Nat
  second : Nat := 0
  nano : Nat := 0
  valid : hour < 24 ∧ minute < 60 ∧ second ≤ 60 ∧ nano < 1000000000
  deriving DecidableEq, Repr

namespace TimeOfDay

def ofNumbers? (hour minute second nano : Nat) : Option TimeOfDay :=
  if valid : hour < 24 ∧ minute < 60 ∧ second ≤ 60 ∧ nano < 1000000000 then
    some ⟨hour, minute, second, nano, valid⟩
  else none

def midnight : TimeOfDay :=
  ⟨0, 0, 0, 0, by omega⟩

/-- The fraction of the second in three, six or nine digits, the fewest that hold it. -/
def fractionText (nano : Nat) : String :=
  if nano = 0 then ""
  else if nano % 1000000 = 0 then "." ++ padded 3 (nano / 1000000)
  else if nano % 1000 = 0 then "." ++ padded 6 (nano / 1000)
  else "." ++ padded 9 nano

def clockText (t : TimeOfDay) : String :=
  padded 2 t.hour ++ ":" ++ padded 2 t.minute ++ ":" ++ padded 2 t.second

end TimeOfDay

structure Timestamp where
  date : Date
  time : TimeOfDay
  deriving DecidableEq, Repr

namespace Timestamp

def text (t : Timestamp) : String :=
  yearText t.date.year ++ "-" ++ padded 2 t.date.month ++ "-" ++ padded 2 t.date.day ++ "T" ++
    t.time.clockText ++ TimeOfDay.fractionText t.time.nano

/-- The form with the month's name that listings are shown in. -/
def shown (t : Timestamp) : String :=
  yearText t.date.year ++ "-" ++ monthName t.date.month ++ "-" ++ padded 2 t.date.day ++ " " ++
    t.time.clockText

/-- Takes a number of at most `width` digits from the front, after any blanks. -/
def takeNumber? (width : Nat) (cs : List Char) : Option (Nat × List Char) :=
  let cs := trimStart cs
  let ds := (cs.take width).takeWhile isDigit
  if ds.isEmpty then none else some (ofDigits ds, cs.drop ds.length)

/-- Takes a year from the front: four digits at most, or any number of them after a sign. -/
def takeYear? (cs : List Char) : Option (Int × List Char) :=
  let signed (cs : List Char) : Option (Nat × List Char) :=
    let ds := cs.takeWhile isDigit
    if ds.isEmpty then none else some (ofDigits ds, cs.drop ds.length)
  match trimStart cs with
  | '-' :: cs => (signed cs).map fun (n, rest) => (-(n : Int), rest)
  | '+' :: cs => (signed cs).map fun (n, rest) => ((n : Int), rest)
  | cs => (takeNumber? 4 cs).map fun (n, rest) => ((n : Int), rest)

def takeMark? (mark : Char) (cs : List Char) : Option (List Char) :=
  match trimStart cs with
  | c :: rest => if c = mark then some rest else none
  | [] => none

/-- Takes a fraction of a second from the front, if there is one; digits after the ninth are cut. -/
def takeFraction? : List Char → Option (Nat × List Char)
  | '.' :: cs =>
    let ds := cs.takeWhile isDigit
    let kept := ds.take 9
    if ds.isEmpty then none
    else some (ofDigits kept * Nat.pow 10 (9 - kept.length), cs.drop ds.length)
  | cs => some (0, cs)

/-- Reads the written form; blanks may stand before each number and each separator. -/
def ofText? (s : String) : Option Timestamp := do
  let (year, cs) ← takeYear? s.toList
  let cs ← takeMark? '-' cs
  let (month, cs) ← takeNumber? 2 cs
  let cs ← takeMark? '-' cs
  let (day, cs) ← takeNumber? 2 cs
  let cs ← takeMark? 'T' cs
  let (hour, cs) ← takeNumber? 2 cs
  let cs ← takeMark? ':' cs
  let (minute, cs) ← takeNumber? 2 cs
  let cs ← takeMark? ':' cs
  let (second, cs) ← takeNumber? 2 cs
  let (nano, cs) ← takeFraction? cs
  if blankText cs then
    let date ← Date.ofNumbers? year month day
    let time ← TimeOfDay.ofNumbers? hour minute second nano
    some ⟨date, time⟩
  else none

end Timestamp

end FtpControl

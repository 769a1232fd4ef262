import FtpControl.Calendar.Timestamp
import FtpControl.Failure
import FtpControl.Text.DecimalDigit

namespace FtpControl

inductive Entry.Kind where
  | file
  | directory
  | link
  | other
  deriving DecidableEq, Repr

/-- One name of a listing; for a link the name is without its target. -/
structure Entry where
  name : String
  kind : Entry.Kind
  size : UInt64
  modified : Timestamp
  deriving DecidableEq, Repr

namespace Entry

/-- Links count as directories: both can be entered. -/
def isDirectory (e : Entry) : Bool :=
  e.kind == .directory || e.kind == .link

/-- The text after the last point, unless the name has none or begins with its only one. -/
def extension? (e : Entry) : Option String :=
  let cs := e.name.toList
  let tail := (cs.reverse.takeWhile (· != '.')).reverse
  if tail.length + 1 < cs.length then some (String.ofList tail) else none

inductive Fault where
  | noMonth
  | columnCount
  | noDay
  | noClock
  | noName
  | size (word : List Char)
  | month
  | day (word : List Char)
  | year (word : List Char)
  | clock
  | date
  deriving DecidableEq, Repr

def Fault.message : Fault → String
  | .noMonth => "No month token found."
  | .columnCount => "Unexpected number of meta-data tokens."
  | .noDay => "Missing day token."
  | .noClock => "Missing time or year token."
  | .noName => "Missing file name."
  | .size word => "Invalid size '" ++ String.ofList word ++ "'."
  | .month => "Unknown month."
  | .day word => "Invalid day '" ++ String.ofList word ++ "'."
  | .year word => "Invalid year '" ++ String.ofList word ++ "'."
  | .clock => "Unknown clock/year format."
  | .date => "Invalid date."

/-- Two decimal digits, a colon and two decimal digits, of any script. -/
def clockShape : List Char → Bool
  | [a, b, ':', c, d] => [a, b, c, d].all isDecimalDigit
  | _ => false

def clock? : List Char → Option TimeOfDay
  | [a, b, ':', c, d] =>
    if [a, b, c, d].all isDigit then TimeOfDay.ofNumbers? (ofDigits [a, b]) (ofDigits [c, d]) 0 0
    else none
  | _ => none

/-- The latest day not after `today` with this month and day in `today`'s year or the year before,
and 28 February of the year before for a 29 February that neither has. -/
def recentDate? (today : Date) (month day : Nat) : Option Date :=
  match Date.ofNumbers? today.year month day with
  | some d => if d ≤ today then some d else Date.inYear? (today.year - 1) month day
  | none => Date.inYear? (today.year - 1) month day

/-- The moment that a month, a day and a clock or year give. A year means the start of that day; a
clock means that the year was left out because the date is recent. -/
def moment (today : Date) (monthWord dayWord clockWord : List Char) : Except Fault Timestamp := do
  let some month := month? monthWord | throw .month
  let some day := natural? (Nat.pow 2 32) dayWord | throw (.day dayWord)
  if clockWord.contains ':' then
    if clockShape clockWord then
      let some time := clock? clockWord | throw .date
      let some date := recentDate? today month day | throw .date
      return ⟨date, time⟩
    else throw .clock
  else
    let some year := integer? (Nat.pow 2 31) clockWord | throw (.year clockWord)
    let some date := Date.ofNumbers? year month day | throw .date
    return ⟨date, .midnight⟩

/-- The word of the column at this place, the empty one past the last. -/
def wordAt (cols : List (List Char)) (i : Nat) : List Char :=
  word (cols.getD i [])

/-- The month's place among the columns: the first of the fourth, fifth and sixth that holds the
name of a month after a row of digits. -/
def anchor? (cols : List (List Char)) : Option Nat :=
  [3, 4, 5].find? fun i => (month? (wordAt cols i)).isSome && allDigits (wordAt cols (i - 1))

/-- The text before the first arrow between a link's name and its target. -/
def beforeArrow? : List Char → Option (List Char)
  | [] => none
  | c :: cs =>
    if [' ', '-', '>', ' '].isPrefixOf (c :: cs) then some []
    else (beforeArrow? cs).map (c :: ·)

/-- The kind by the first character of the permissions. Links are known by their arrow alone. -/
def kindOf : List Char → Kind
  | '-' :: _ => .file
  | 'd' :: _ | 'l' :: _ => .directory
  | _ => .other

/-- Reads one line of a listing; `today` gives the year of a date that leaves it out. The owner, or the
owner and the group, may be missing, and a year may stand for the clock:

    -rw-r--r--  1 root  other  531 Jan 29 03:26 README -/
def ofLine (today : Date) (line : List Char) : Except Fault Entry := do
  let cols := columns line
  let some i := anchor? cols
    | throw (if cols.any fun col => (month? (word col)).isSome then .columnCount else .noMonth)
  if cols.length ≤ i + 1 then throw .noDay
  if cols.length ≤ i + 2 then throw .noClock
  let some rest := cols[i + 3]? | throw .noName
  let sizeWord := wordAt cols (i - 1)
  let some size := natural? (Nat.pow 2 64) sizeWord | throw (.size sizeWord)
  let modified ← moment today (wordAt cols i) (wordAt cols (i + 1)) (wordAt cols (i + 2))
  let (name, kind) := match beforeArrow? rest with
    | some name => (name, Kind.link)
    | none => (rest, kindOf (wordAt cols 0))
  return { name := String.ofList name, kind, size := UInt64.ofNat size, modified }

end Entry

end FtpControl

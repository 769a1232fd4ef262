namespace FtpControl

/-- The characters with the Unicode property White_Space. -/
def isBlank (c : Char) : Bool :=
  let n := c.toNat
  (0x09 ≤ n && n ≤ 0x0D) || n == 0x20 || n == 0x85 || n == 0xA0 || n == 0x1680 ||
    (0x2000 ≤ n && n ≤ 0x200A) || n == 0x2028 || n == 0x2029 || n == 0x202F || n == 0x205F ||
    n == 0x3000

def trimStart (cs : List Char) : List Char :=
  cs.dropWhile isBlank

def trimEnd (cs : List Char) : List Char :=
  (cs.reverse.dropWhile isBlank).reverse

/-- A text of blanks alone, the empty one included. -/
def blankText (cs : List Char) : Bool :=
  cs.all isBlank

/-- The suffixes of a line that begin at the first character of a word, in order. -/
def wordStarts (inWord : Bool) : List Char → List (List Char)
  | [] => []
  | c :: cs =>
    if isBlank c then wordStarts false cs
    else if inWord then wordStarts true cs
    else (c :: cs) :: wordStarts true cs

/-- The columns of a line, each as the rest of the line from its first character on. -/
def columns (line : List Char) : List (List Char) :=
  wordStarts false line

/-- The word that a column begins with. -/
def word (column : List Char) : List Char :=
  column.takeWhile (fun c => !isBlank c)

def isDigit (c : Char) : Bool :=
  '0' ≤ c && c ≤ '9'

def digitValue (c : Char) : Nat :=
  c.toNat - 48

def hexValue? (c : Char) : Option Nat :=
  if isDigit c then some (digitValue c)
  else if 'a' ≤ c ∧ c ≤ 'f' then some (c.toNat - 87)
  else if 'A' ≤ c ∧ c ≤ 'F' then some (c.toNat - 55)
  else none

def ofDigits (ds : List Char) : Nat :=
  ds.foldl (fun n d => 10 * n + digitValue d) 0

/-- A non-empty row of ASCII digits. -/
def allDigits (cs : List Char) : Bool :=
  !cs.isEmpty && cs.all isDigit

/-- A row of digits, a leading plus sign allowed, of a value below the bound. -/
def natural? (bound : Nat) (cs : List Char) : Option Nat :=
  let ds := match cs with
    | '+' :: ds => ds
    | ds => ds
  if allDigits ds ∧ ofDigits ds < bound then some (ofDigits ds) else none

/-- A row of digits, a sign allowed, of a value in the range of a signed word of the given size. -/
def integer? (half : Nat) (cs : List Char) : Option Int :=
  match cs with
  | '-' :: ds => if allDigits ds ∧ ofDigits ds ≤ half then some (-(ofDigits ds : Int)) else none
  | cs => (natural? half cs).map Int.ofNat

def padded (width n : Nat) : String :=
  let ds := toString n
  String.ofList (List.replicate (width - ds.length) '0') ++ ds

end FtpControl

import FtpControl.Failure
import FtpControl.Text

namespace FtpControl

/-- One line of a server reply: three digits, a space in the last line or a hyphen and a space in others,
and any text. -/
structure Reply where
  /-- The three digits as a number. -/
  number : Fin 1000
  /-- No further line belongs to the reply. -/
  last : Bool
  text : List Char
  deriving DecidableEq, Repr

namespace Reply

def line (r : Reply) : List Char :=
  let n := r.number.val
  Nat.digitChar (n / 100) :: Nat.digitChar (n / 10 % 10) :: Nat.digitChar (n % 10) ::
    (if r.last then ' ' :: r.text else '-' :: ' ' :: r.text)

def number? (a b c : Char) : Option (Fin 1000) :=
  let n := 100 * digitValue a + 10 * digitValue b + digitValue c
  if h : (isDigit a && isDigit b && isDigit c) ∧ n < 1000 then some ⟨n, h.2⟩ else none

def ofLine? : List Char → Option Reply
  | a :: b :: c :: ' ' :: text => (number? a b c).map fun number => ⟨number, true, text⟩
  | a :: b :: c :: '-' :: ' ' :: text => (number? a b c).map fun number => ⟨number, false, text⟩
  | _ => none

def ofLine (line : List Char) : Except Failure Reply :=
  match ofLine? line with
  | some r => .ok r
  | none => .error { kind := .invalidReply, message := "Invalid server reply format." }

/-- The reply code; `000` and those from `700` on are well formed but not in use. -/
def code (r : Reply) : Except Failure UInt16 :=
  if 1 ≤ r.number.val ∧ r.number.val ≤ 699 then .ok (UInt16.ofNat r.number.val)
  else .error (.outOfRange (UInt16.ofNat r.number.val))

def transient (r : Reply) : Bool :=
  r.number.val / 100 == 4

def permanent (r : Reply) : Bool :=
  r.number.val / 100 == 5

def negative (r : Reply) : Bool :=
  r.transient || r.permanent

def quoted? (cs : List Char) : Option (List Char) :=
  match cs.dropWhile (· != '"') with
  | [] => none
  | _ :: inner => if inner.contains '"' then some (inner.takeWhile (· != '"')) else none

/-- The path that a reply to `PWD` names in double quotes. -/
def quotedPath (r : Reply) : Except Failure (List Char) :=
  match quoted? r.text with
  | some path => .ok path
  | none => .error { kind := .malformedPath, message := "Invalid path format in PWD reply." }

end Reply

end FtpControl

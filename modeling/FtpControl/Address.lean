import FtpControl.Text

namespace FtpControl

inductive Address.Family where
  | ipv4
  | ipv6
  deriving DecidableEq, Repr

def Address.Family.name : Address.Family → String
  | .ipv4 => "Ipv4"
  | .ipv6 => "Ipv6"

inductive Address where
  | v4 (octets : Vector UInt8 4)
  | v6 (groups : Vector UInt16 8)
  deriving DecidableEq, Repr

namespace Address

def family : Address → Family
  | .v4 _ => .ipv4
  | .v6 _ => .ipv6

/-- The parts of a text between marks. -/
def parts (mark : Char) : List Char → List (List Char)
  | [] => [[]]
  | c :: cs =>
    if c = mark then [] :: parts mark cs
    else
      match parts mark cs with
      | p :: ps => (c :: p) :: ps
      | [] => [[c]]

/-- Three digits at most, none of them a needless zero, of a value below 256. -/
def octet? (cs : List Char) : Option UInt8 :=
  let n := ofDigits cs
  if allDigits cs ∧ cs.length ≤ 3 ∧ n < 256 ∧ (cs.head? = some '0' → cs.length = 1) then
    some (UInt8.ofNat n)
  else none

def octets? (cs : List Char) : Option (Vector UInt8 4) := do
  let octets ← (parts '.' cs).mapM octet?
  if h : octets.toArray.size = 4 then some ⟨octets.toArray, h⟩ else none

def group? (cs : List Char) : Option UInt16 := do
  let digits ← cs.mapM hexValue?
  if 1 ≤ cs.length ∧ cs.length ≤ 4 then
    some (UInt16.ofNat (digits.foldl (fun n d => 16 * n + d) 0))
  else none

def groupOf (high low : UInt8) : UInt16 :=
  UInt16.ofNat (256 * high.toNat + low.toNat)

def groupsOfOctets (octets : Vector UInt8 4) : List UInt16 :=
  [groupOf octets[0] octets[1], groupOf octets[2] octets[3]]

/-- Reads groups with colons between them; four octets may stand for the last two if `mixed`. -/
def groups? (mixed : Bool) (cs : List Char) : Option (List UInt16) :=
  go (parts ':' cs)
where
  /-- Reads the groups one by one. -/
  go : List (List Char) → Option (List UInt16)
    | [] => some []
    | [p] =>
      match group? p with
      | some g => some [g]
      | none => if mixed then (octets? p).map groupsOfOctets else none
    | p :: ps => do return (← group? p) :: (← go ps)

def splitGap? : List Char → Option (List Char × List Char)
  | ':' :: ':' :: cs => some ([], cs)
  | c :: cs => (splitGap? cs).map fun (head, tail) => (c :: head, tail)
  | [] => none

/-- Reads eight groups; a double colon stands for one group or more that are zero. -/
def v6? (cs : List Char) : Option Address := do
  let groups ← match splitGap? cs with
    | none => groups? true cs
    | some (head, tail) => do
      let head ← if head.isEmpty then some [] else groups? false head
      let tail ← if tail.isEmpty then some [] else groups? true tail
      if head.length + tail.length ≤ 7 then
        some (head ++ List.replicate (8 - (head.length + tail.length)) 0 ++ tail)
      else none
  if h : groups.toArray.size = 8 then some (.v6 ⟨groups.toArray, h⟩) else none

def ofText? (cs : List Char) : Option Address :=
  ((octets? cs).map .v4).orElse fun _ => v6? cs

def octetsText (octets : List UInt8) : String :=
  ".".intercalate (octets.map toString)

def groupsText (groups : List UInt16) : String :=
  ":".intercalate (groups.map fun g => String.ofList (Nat.toDigits 16 g.toNat))

/-- The place and length of the first of the longest rows of zero groups. -/
def longestGap (groups : List UInt16) : Nat × Nat :=
  (List.range groups.length).foldl (fun best i =>
    let n := ((groups.drop i).takeWhile (· == 0)).length
    if best.2 < n then (i, n) else best) (0, 0)

/-- The written form: a mapped address ends in octets, and the longest row of two or more zero
groups is a double colon. -/
def text : Address → String
  | .v4 octets => octetsText octets.toList
  | .v6 groups =>
    let groups := groups.toList
    match groups with
    | [0, 0, 0, 0, 0, 0xFFFF, a, b] =>
      "::ffff:" ++ octetsText [(a / 256).toUInt8, a.toUInt8, (b / 256).toUInt8, b.toUInt8]
    | _ =>
      let (start, n) := longestGap groups
      if n < 2 then groupsText groups
      else groupsText (groups.take start) ++ "::" ++ groupsText (groups.drop (start + n))

end Address

structure Endpoint where
  address : Address
  port : UInt16
  deriving DecidableEq, Repr

namespace Endpoint

/-- The written form; an address with colons stands in brackets. -/
def text (e : Endpoint) : String :=
  match e.address with
  | .v4 _ => e.address.text ++ ":" ++ toString e.port
  | .v6 _ => "[" ++ e.address.text ++ "]:" ++ toString e.port

def ofText? (cs : List Char) : Option Endpoint := do
  let size := (cs.reverse.takeWhile (· != ':')).length
  let host := cs.take (cs.length - size - 1)
  let port := cs.drop (cs.length - size)
  let n := ofDigits port
  if allDigits port ∧ n < 65536 ∧ size < cs.length then
    let address ← match host with
      | '[' :: inner =>
        if inner.getLast? = some ']' then Address.v6? inner.dropLast else none
      | _ => (Address.octets? host).map .v4
    some ⟨address, UInt16.ofNat n⟩
  else none

end Endpoint

end FtpControl

namespace FtpControl.Utf8

/-- A character whose first bytes are read: its bits so far, how many bytes it lacks, and the range
that the next byte has to lie in. -/
structure Pending where
  bits : Nat
  missing : Nat
  low : Nat := 0x80
  high : Nat := 0xBF
  deriving DecidableEq, Repr

/-- What a first byte begins. The narrowed ranges keep out long forms, surrogates and numbers above
the last character. -/
def lead? (b : Nat) : Option Pending :=
  if b < 0x80 then some { bits := b, missing := 0 }
  else if b < 0xC2 then none
  else if b < 0xE0 then some { bits := b - 0xC0, missing := 1 }
  else if b = 0xE0 then some { bits := 0, missing := 2, low := 0xA0 }
  else if b = 0xED then some { bits := 13, missing := 2, high := 0x9F }
  else if b < 0xF0 then some { bits := b - 0xE0, missing := 2 }
  else if b = 0xF0 then some { bits := 0, missing := 3, low := 0x90 }
  else if b < 0xF4 then some { bits := b - 0xF0, missing := 3 }
  else if b = 0xF4 then some { bits := 4, missing := 3, high := 0x8F }
  else none

/-- The characters found so far, latest first, gaps among them, and the one that is being read. -/
structure Scan where
  found : List (Option Char) := []
  pending : Option Pending := none
  deriving DecidableEq, Repr

namespace Scan

/-- Goes on with a character, which may be complete. -/
def put (found : List (Option Char)) (p : Pending) : Scan :=
  if p.missing = 0 then { found := some (Char.ofNat p.bits) :: found }
  else { found, pending := some p }

def start (found : List (Option Char)) (b : Nat) : Scan :=
  match lead? b with
  | some p => put found p
  | none => { found := none :: found }

def step (s : Scan) (byte : UInt8) : Scan :=
  let b := byte.toNat
  match s.pending with
  | none => start s.found b
  | some p =>
    if p.low ≤ b ∧ b ≤ p.high then
      put s.found { bits := 64 * p.bits + b % 64, missing := p.missing - 1 }
    else start (none :: s.found) b

def finish (s : Scan) : List (Option Char) :=
  match s.pending with
  | none => s.found.reverse
  | some _ => (none :: s.found).reverse

end Scan

def scan (bytes : List UInt8) : List (Option Char) :=
  (bytes.foldl Scan.step {}).finish

/-- The text of the bytes, with U+FFFD in each gap. Of bytes that are no character, each longest
beginning of one is a gap. -/
def decode (bytes : List UInt8) : List Char :=
  (scan bytes).map fun c => c.getD '\uFFFD'

def decode? (bytes : List UInt8) : Option (List Char) :=
  let found := scan bytes
  if found.all Option.isSome then some (found.filterMap id) else none

def encode (cs : List Char) : List UInt8 :=
  cs.flatMap String.utf8EncodeChar

end FtpControl.Utf8

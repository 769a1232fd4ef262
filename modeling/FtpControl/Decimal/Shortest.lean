namespace FtpControl.Decimal

/-- The number `units * 10 ^ exponent`. -/
structure Scaled where
  units : Nat
  exponent : Int
  deriving DecidableEq, Repr

structure Binary where
  mantissa : Nat
  exponent : Int
  /-- The lower neighbour is only half as far away as the upper one. -/
  narrow : Bool := false
  deriving DecidableEq, Repr

namespace Binary

/-- The fraction and its rounding interval in quarters of the last place: lower end, value, upper
end. -/
def quarters (x : Binary) : Nat × Nat × Nat :=
  (4 * x.mantissa - (if x.narrow then 1 else 2), 4 * x.mantissa, 4 * x.mantissa + 2)

/-- A quarter of the last place in units of `10 ^ k`, as a ratio. -/
def unitRatio (x : Binary) (k : Int) : Nat × Nat :=
  (Nat.pow 2 (x.exponent - 2).toNat * Nat.pow 10 (-k).toNat,
    Nat.pow 2 (2 - x.exponent).toNat * Nat.pow 10 k.toNat)

/-- The neighbour of the fraction among the multiples of `10 ^ k` that is read as it: of two the
nearer, and an even one of two that are as near. -/
def onGrid? (x : Binary) (k : Int) : Option Nat :=
  let (low, value, high) := x.quarters
  let (num, den) := x.unitRatio k
  let inside (d : Nat) : Bool :=
    if x.mantissa % 2 = 0 then low * num ≤ d * den && d * den ≤ high * num
    else low * num < d * den && d * den < high * num
  let below := value * num / den
  let excess := value * num - below * den
  let above := below + 1
  match decide (0 < below) && inside below, inside above with
  | true, true =>
    if 2 * excess < den ∨ (2 * excess = den ∧ below % 2 = 0) then some below else some above
  | true, false => some below
  | false, true => some above
  | false, false => none

/-- The shortest decimal among the exponents up to `top`, the highest first. -/
def shortestUpTo (x : Binary) (top : Int) (steps : Nat) : Option Scaled :=
  (List.range steps).findSome? fun (i : Nat) =>
    (x.onGrid? (top - i)).map fun units => { units, exponent := top - i }

def ofBits? (bits : UInt64) : Option Binary :=
  let fraction := bits.toNat % Nat.pow 2 52
  let rank := bits.toNat / Nat.pow 2 52 % Nat.pow 2 11
  if rank = 2047 ∨ (rank = 0 ∧ fraction = 0) then none
  else if rank = 0 then some { mantissa := fraction, exponent := -1074 }
  else some {
    mantissa := Nat.pow 2 52 + fraction
    exponent := Int.ofNat rank - 1075
    narrow := decide (fraction = 0 ∧ 1 < rank) }

/-- The shortest decimal of a number of double precision, and of those that are as short the nearest. -/
def shortest (x : Binary) : Option Scaled :=
  x.shortestUpTo 309 640

end Binary

end FtpControl.Decimal

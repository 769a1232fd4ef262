import FtpControl.Decimal.Style
import FtpControl.Json.Value
import FtpControl.Text

namespace FtpControl.Json

inductive Number where
  | natural (n : UInt64)
  /-- The whole number below zero with this size, at most `2 ^ 63`. -/
  | negative (size : UInt64)
  | float (x : Float)

/-- Digits taken into a significand of 64 bits, and the power of ten that it is short of. -/
structure Significand where
  units : Nat
  power : Int
  deriving DecidableEq, Repr

def Significand.fits (s : Significand) (d : Char) : Bool :=
  10 * s.units + digitValue d < Nat.pow 2 64

/-- Takes the digits before the point. From the first that does not fit on they only count. -/
def Significand.takeWhole (s : Significand) : List Char → Significand
  | [] => s
  | d :: ds =>
    if s.fits d then takeWhole { s with units := 10 * s.units + digitValue d } ds
    else { s with power := s.power + (d :: ds).length }

/-- Takes the digits after the point, up to the first that does not fit. -/
def Significand.takeFraction (s : Significand) : List Char → Significand
  | [] => s
  | d :: ds =>
    if s.fits d then takeFraction ⟨10 * s.units + digitValue d, s.power - 1⟩ ds else s

def tenTo (n : Nat) : Float :=
  Float.ofScientific 1 false n

/-- Divides by `10 ^ 308` so many times. -/
def shrink : Nat → Float → Float
  | 0, x => x
  | steps + 1, x => if x == 0 then x else shrink steps (x / tenTo 308)

/-- The number `x * 10 ^ power`, from multiplications and divisions by powers of ten that are
numbers of double precision. A number that is too great is none. -/
def scale? (x : Float) (power : Int) : Option Float :=
  let size := power.natAbs
  if power < 0 then
    let steps := (size - 1) / 308
    some (shrink steps x / tenTo (size - 308 * steps))
  else if size ≤ 308 then
    let y := x * tenTo size
    if y.isInf then none else some y
  else if x == 0 then some x
  else none

/-- The number of double precision that a numeral names. An exponent of more than 31 bits leaves
nothing but zero or a number that is too great. -/
def Numeral.float? (n : Numeral) : Option Float :=
  let s := (Significand.takeWhole ⟨0, 0⟩ n.whole).takeFraction n.fraction
  let magnitude : Option Float :=
    match n.exponent with
    | none => scale? (Float.ofNat s.units) s.power
    | some (negative, ds) =>
      let size := ofDigits ds
      let shift := if negative then -Int.ofNat size else Int.ofNat size
      if size < Nat.pow 2 31 then scale? (Float.ofNat s.units) (s.power + shift)
      else if s.units = 0 ∨ negative then some 0
      else none
  magnitude.map fun x => if n.negative then -x else x

def Numeral.number (n : Numeral) : Except Fault Number :=
  let size := ofDigits n.whole
  if n.fraction.isEmpty ∧ n.exponent.isNone ∧ ¬ n.negative ∧ size < Nat.pow 2 64 then
    .ok (.natural (UInt64.ofNat size))
  else if n.fraction.isEmpty ∧ n.exponent.isNone ∧ n.negative ∧ 0 < size ∧ size ≤ Nat.pow 2 63 then
    .ok (.negative (UInt64.ofNat size))
  else
    match n.float? with
    | some x => .ok (.float x)
    | none => .error .numberOutOfRange

/-- Numbers are written positionally from 0.00001 up to sixteen digits before the point. -/
def numberStyle : Decimal.Style :=
  ⟨-5, 15, 2⟩

end FtpControl.Json

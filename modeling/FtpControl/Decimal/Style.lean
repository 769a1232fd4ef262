import FtpControl.Decimal.Shortest

namespace FtpControl.Decimal

structure Style where
  /-- The least power of ten that a number written positionally begins with. -/
  lowest : Int
  /-- The greatest such power. -/
  highest : Int
  /-- The least count of exponent digits. -/
  exponentDigits : Nat
  deriving DecidableEq, Repr

namespace Style

def zeros (n : Nat) : String :=
  String.ofList (List.replicate n '0')

def positional (digits : List Char) (exponent : Int) : String :=
  let whole : Int := digits.length + exponent
  if 0 ≤ exponent then String.ofList digits ++ zeros exponent.toNat ++ ".0"
  else if 0 < whole then
    String.ofList (digits.take whole.toNat) ++ "." ++ String.ofList (digits.drop whole.toNat)
  else "0." ++ zeros (-whole).toNat ++ String.ofList digits

/-- One digit before the point, and the power of ten with its sign; no point after a single digit.
-/
def scientific (style : Style) (digits : List Char) (power : Int) : String :=
  let tail := digits.drop 1
  let size := toString power.natAbs
  String.ofList (digits.take 1) ++ (if tail.isEmpty then "" else "." ++ String.ofList tail) ++
    (if power < 0 then "e-" else "e+") ++ zeros (style.exponentDigits - size.length) ++ size

def text (style : Style) (x : Scaled) : String :=
  let digits := Nat.toDigits 10 x.units
  let power : Int := digits.length + x.exponent - 1
  if style.lowest ≤ power ∧ power ≤ style.highest then positional digits x.exponent
  else style.scientific digits power

/-- The text of a number of double precision. Zero keeps its sign. -/
def floatText (style : Style) (x : Float) : String :=
  let sign := if x.toBits.toNat / Nat.pow 2 63 = 1 then "-" else ""
  match (Binary.ofBits? x.toBits).bind Binary.shortest with
  | some decimal => sign ++ style.text decimal
  | none => sign ++ "0.0"

end Style

end FtpControl.Decimal

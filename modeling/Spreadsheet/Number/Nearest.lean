/-
  The double nearest to a fraction.

  A positive double is `m · 2^q` with `m` below `2^53`, `q` at least `-1074`,
  and `m` at least `2^52` unless `q` is least. `nearestParts` finds these two
  numbers for a fraction by one exact division, a tie going to the even `m`.
  Reading a decimal is this function applied to its fraction, and printing one
  asks it which decimals read back.
-/

namespace Spreadsheet.Number

/-- The quotient rounded to the nearest natural number, a tie to the even
one. -/
def roundDiv (num den : Nat) : Nat :=
  let q := num / den
  let r := num % den
  if 2 * r < den then q
  else if den < 2 * r then q + 1
  else if q % 2 = 0 then q else q + 1

/-- The exponent of the power of two at or below a fraction. -/
def fractionLog2 (num den : Nat) : Int :=
  let g : Int := (num.log2 : Int) - den.log2
  if den <<< g.toNat ≤ num <<< (-g).toNat then g else g - 1

/-- The exponent of the last place of a double near the fraction. -/
def lastPlace (num den : Nat) : Int := max (fractionLog2 num den - 52) (-1074)

/-- The least mantissa of full length. -/
def leastFull : Nat := 1 <<< 52

/-- Mantissa and exponent of the double nearest to a fraction, as if there were
no greatest double. The mantissa is zero if the nearest double is. -/
def nearestParts (num den : Nat) : Nat × Int :=
  let q := lastPlace num den
  let m := roundDiv (num <<< (-q).toNat) (den <<< q.toNat)
  if m = 2 * leastFull then (leastFull, q + 1) else (m, q)

open Float.Model (UnpackedFloat) in
def signOf (negative : Bool) : UnpackedFloat.Sign := if negative then .negative else .positive

open Float.Model (UnpackedFloat) in
/-- The double with the given sign, mantissa and exponent, and infinity past
the greatest one. -/
def ofParts (negative : Bool) (m : Nat) (q : Int) : Float :=
  .ofModel <| .pack <|
    if h : 0 < m then .finite (signOf negative) m q h else .zero (signOf negative)

def infinite (negative : Bool) : Float := .ofModel (.pack (.infinity (signOf negative)))

def notANumber : Float := .ofModel (.pack .notANumber)

def tenTo (k : Nat) : Nat := Nat.pow 10 k

/-- A number in decimal notation: `coefficient · 10^exponent`. -/
structure Decimal where
  coefficient : Nat
  exponent : Int
  deriving DecidableEq, Repr

namespace Decimal

def num (d : Decimal) : Nat := d.coefficient * tenTo d.exponent.toNat

def den (d : Decimal) : Nat := tenTo (-d.exponent).toNat

/-- Mantissa and exponent of the double nearest to a decimal. -/
def nearestParts (d : Decimal) : Nat × Int := Number.nearestParts d.num d.den

end Decimal

end Spreadsheet.Number

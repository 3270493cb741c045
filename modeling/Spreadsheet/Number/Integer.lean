import Spreadsheet.Number.Nearest

/-
  Doubles as integers: whole values, truncation into a range, and integer
  powers.
-/

namespace Spreadsheet.Number

open Float.Model (UnpackedFloat)

def withSign (sign : UnpackedFloat.Sign) (n : Nat) : Int :=
  match sign with
  | .positive => n
  | .negative => -n

/-- The integer a double is equal to, if it is one. -/
def whole? (x : Float) : Option Int :=
  match x.toModel.unpack with
  | .zero _ => some 0
  | .finite s m q _ =>
    if m % (1 <<< (-q).toNat) = 0 then some (withSign s ((m <<< q.toNat) >>> (-q).toNat)) else none
  | _ => none

/-- The integer part of a double, clamped to a range that holds zero. What is
no number counts as zero. -/
def truncate (least greatest : Int) (x : Float) : Int :=
  match x.toModel.unpack with
  | .notANumber | .zero _ => 0
  | .infinity .positive => greatest
  | .infinity .negative => least
  | .finite s m q _ => max least (min greatest (withSign s ((m <<< q.toNat) >>> (-q).toNat)))

/-- The product of `acc` and the `n`-th power of `base`: the factor for each
binary digit of `n` in turn, lowest first, from repeated squares. -/
def powerLoop (base acc : Float) (n : Nat) : Float :=
  if n = 0 then acc
  else powerLoop (base * base) (if n % 2 = 1 then acc * base else acc) (n / 2)

/-- An integer power: repeated squaring, and for a negative exponent one
reciprocal at the end. -/
def intPower (base : Float) (n : Int) : Float :=
  let p := powerLoop base 1.0 n.natAbs
  if n < 0 then 1.0 / p else p

end Spreadsheet.Number

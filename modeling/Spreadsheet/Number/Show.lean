import Spreadsheet.Number.Integer
import Spreadsheet.Number.Shortest
import Spreadsheet.Text.Blank

/-
  The text of a number.

  A double is written with the fewest digits that read back as it, always in
  positional notation. A cell shows a whole number below `10^15` as an integer,
  so that zero has no sign there; it shows everything else the same way.
-/

namespace Spreadsheet.Number

open Float.Model (UnpackedFloat)

/-- Digits with a power of ten in positional notation: zeros after them, a
point among them, or a point and zeros before them. -/
def placed (ds : List Char) (exponent : Int) : List Char :=
  let places := (-exponent).toNat
  if 0 ≤ exponent then ds ++ List.replicate exponent.toNat '0'
  else if places < ds.length then
    ds.take (ds.length - places) ++ '.' :: ds.drop (ds.length - places)
  else '0' :: '.' :: (List.replicate (places - ds.length) '0' ++ ds)

/-- A positive decimal in positional notation, without zeros at the end of a
fraction. -/
def Decimal.positional (d : Decimal) : List Char :=
  let ds := Text.digits d.coefficient
  let kept := Text.dropEndWhile (· == '0') ds
  placed kept (d.exponent + (ds.length - kept.length : Nat))

def signed (sign : UnpackedFloat.Sign) (cs : List Char) : List Char :=
  match sign with
  | .positive => cs
  | .negative => '-' :: cs

def integerText (n : Int) : List Char :=
  if n < 0 then '-' :: Text.digits n.natAbs else Text.digits n.natAbs

/-- A double with the fewest digits that read back as it. -/
def exactText (x : Float) : List Char :=
  match x.toModel.unpack with
  | .notANumber => ['N', 'a', 'N']
  | .infinity s => signed s ['i', 'n', 'f']
  | .zero s => signed s ['0']
  | .finite s m q _ => signed s (shortest m q).positional

/-- The size from which on a whole number is written like any other double. -/
def wholeBound : Nat := tenTo 15

/-- A double as a cell shows it. -/
def cellText (x : Float) : List Char :=
  match whole? x with
  | some n => if n.natAbs < wholeBound then integerText n else exactText x
  | none => exactText x

end Spreadsheet.Number

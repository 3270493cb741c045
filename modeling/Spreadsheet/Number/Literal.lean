import Spreadsheet.Number.Nearest
import Spreadsheet.Text.Word

/-
  Reading a number.

  A literal is a sign, digits with a decimal point anywhere among them, and an
  exponent of ten; only one digit before the exponent is required. The words
  for infinity and for what is no number are literals too. The value is the
  double nearest to the decimal.
-/

namespace Spreadsheet.Number

open Text (isDigit natOfDigits)

def isExponentMark (c : Char) : Bool := c == 'e' || c == 'E'

/-- A sign and the text after it; a text without a sign is positive. -/
def readSign : List Char → Bool × List Char
  | '-' :: cs => (true, cs)
  | '+' :: cs => (false, cs)
  | cs => (false, cs)

/-- The exponent that ends a literal: nothing, or a mark, a sign and digits. -/
def readExponent : List Char → Option Int
  | [] => some 0
  | c :: cs =>
    let (negative, ds) := readSign cs
    if isExponentMark c && !ds.isEmpty && ds.all isDigit then
      some (if negative then -(natOfDigits ds : Int) else natOfDigits ds)
    else none

/-- The digits before and after the decimal point, and the text after them. A
point without digits after it belongs to the number. -/
def readDigits (cs : List Char) : List Char × List Char × List Char :=
  match cs.dropWhile isDigit with
  | '.' :: rest => (cs.takeWhile isDigit, rest.takeWhile isDigit, rest.dropWhile isDigit)
  | rest => (cs.takeWhile isDigit, [], rest)

/-- The double nearest to the decimal that the digits with the exponent
denote. Far outside the range of doubles the answer does not hang on the
digits, and no power of ten is formed. -/
def ofDigits (negative : Bool) (ds : List Char) (exponent : Int) : Float :=
  let d : Decimal := ⟨natOfDigits ds, exponent⟩
  let size : Int := exponent + (ds.dropWhile (· == '0')).length
  if d.coefficient = 0 || size < -400 then ofParts negative 0 0
  else if size > 400 then infinite negative
  else
    let (m, q) := d.nearestParts
    ofParts negative m q

/-- The number a text denotes, if the whole text is one literal. -/
def ofLiteral (text : List Char) : Option Float :=
  let (negative, cs) := readSign text
  if Text.spells "INF" cs || Text.spells "INFINITY" cs then some (infinite negative)
  else if Text.spells "NAN" cs then some notANumber
  else
    let (whole, fraction, rest) := readDigits cs
    if whole.isEmpty && fraction.isEmpty then none
    else
      (readExponent rest).map fun e =>
        ofDigits negative (whole ++ fraction) (e - fraction.length)

def ofText (text : List Char) : Option Float := (ofLiteral text).filter Float.isFinite

end Spreadsheet.Number

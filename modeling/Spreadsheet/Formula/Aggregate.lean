import Spreadsheet.Formula.Comparison
import Spreadsheet.Formula.Value

/-
  What the functions of values compute, apart from how the values are found.

  A sum starts from negative zero, the neutral element of floating-point
  addition, and adds from left to right. The greatest and the least of numbers
  pass over what is no number, and of two equal ones they take the later, which
  shows in the sign of zero.
-/

namespace Spreadsheet.Formula

/-- The sum of numbers from left to right. -/
def total (xs : List Float) : Float := xs.foldl (· + ·) (-0.0)

def numbers (vs : List Value) : List Float := vs.filterMap Value.number?

/-- The sum of values, each as a number. -/
def sumOf (vs : List Value) : Float := total (vs.map Value.toNumber)

/-- The mean of the numbers among values, and zero if there are none. -/
def averageOf (vs : List Value) : Float :=
  let xs := numbers vs
  if xs.isEmpty then 0.0 else total xs / Float.ofNat xs.length

/-- The number of values that are not empty. -/
def countOf (vs : List Value) : Float := Float.ofNat (vs.filter fun v => !v.isEmpty).length

/-- The greater of two numbers, and the second one if they are equal. -/
def greater (x y : Float) : Float := if y < x || y.isNaN then x else y

/-- The lesser of two numbers, and the second one if they are equal. -/
def lesser (x y : Float) : Float := if x < y || y.isNaN then x else y

/-- The numbers combined from left to right, and zero if there are none. -/
def combined (f : Float → Float → Float) : List Float → Float
  | [] => 0.0
  | x :: xs => xs.foldl f x

def maxOf (vs : List Value) : Float := combined greater (numbers vs)

def minOf (vs : List Value) : Float := combined lesser (numbers vs)

/-- The display texts of values in a row. -/
def concatenationOf (vs : List Value) : String := String.join (vs.map Value.display)

/-- A number rounded to a number of decimal places, a half going away from
zero. Negative places round to tens, hundreds and so on. -/
def rounded (x : Float) (places : Int) : Float :=
  let scale := Number.intPower 10.0 places
  if 0.0 ≤ x then (x * scale + 0.5).floor / scale else (x * scale - 0.5).ceil / scale

def placesOf (x : Float) : Int :=
  Number.truncate Int32.minValue.toInt Int32.maxValue.toInt x

/-- The integer part of a value, for a part of a date. Truth values and empty
values are no parts of dates. -/
def datePart? (v : Value) : Option Int :=
  let x := match v with
    | .number x => some x
    | .text s => numberOf? s.toList
    | .boolean _ | .empty => none
  (x.filter Float.isFinite).map (Number.truncate Int64.minValue.toInt Int64.maxValue.toInt)

/-- The text of the date with the given numbers, and the empty text if there is
none. -/
def dateText (year month day : Int) : String :=
  match Date.ofNumbers? year month day with
  | some d => String.ofList d.text
  | none => ""

/-- The order of two numbers. What is no number is in no order to anything. -/
def orderOf? (x y : Float) : Option Ordering :=
  if x < y then some .lt else if y < x then some .gt else if x == y then some .eq else none

/-- Whether a comparison holds of two values. If one is a text, the display
texts are compared in capitals; otherwise the numbers are, and what is no
number is only different. -/
def Comparison.ofValues (op : Comparison) (x y : Value) : Bool :=
  if x.isText || y.isText then
    op.holds (compare (Text.uppercased x.display) (Text.uppercased y.display))
  else match orderOf? x.toNumber y.toNumber with
    | some o => op.holds o
    | none => op == .notEqual

end Spreadsheet.Formula

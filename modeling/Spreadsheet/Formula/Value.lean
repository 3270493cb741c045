import Spreadsheet.Cell.Value
import Spreadsheet.Text.Case

/-
  The values of formulas and their conversions.

  Conversion to a number never fails: what cannot be read counts as zero. The
  aggregates ask for a number only where there is one, and skip the rest.
-/

namespace Spreadsheet.Formula

/-- The finite number a text stands for. A currency sign before it and percent
signs after it are ignored, and a comma is read as a decimal point. -/
def numberOf? (text : List Char) : Option Float :=
  let cs := Text.trim text
  let cs := match cs with
    | '$' :: rest => rest
    | cs => cs
  let cs := Text.trim (Text.dropEndWhile (· == '%') cs)
  if cs.isEmpty then none
  else Number.ofText (cs.map fun c => if c = ',' then '.' else c)

/-- The number a text stands for, and zero for a text that stands for none. -/
def numberOf (text : List Char) : Float := (numberOf? text).getD 0.0

/-- The value of a formula or of a part of one. -/
inductive Value where
  | number (x : Float)
  | text (s : String)
  | boolean (b : Bool)
  | empty

namespace Value

def toNumber : Value → Float
  | number x => x
  | boolean true => 1.0
  | boolean false => 0.0
  | text s => numberOf s.toList
  | empty => 0.0

/-- The number among the values of an aggregate: neither an empty value nor a
text that stands for no number is one. -/
def number? : Value → Option Float
  | empty => none
  | text s => numberOf? s.toList
  | v => some v.toNumber

/-- Whether the value counts as true in a condition. -/
def isTrue : Value → Bool
  | boolean b => b
  | number x => x != 0.0
  | text s =>
    let cs := Text.trim s.toList
    !cs.isEmpty && !Text.spells "FALSE" cs && cs != ['0']
  | empty => false

def isEmpty : Value → Bool
  | empty => true
  | _ => false

def isText : Value → Bool
  | text _ => true
  | _ => false

def display : Value → String
  | number x => String.ofList (Number.cellText x)
  | text s => s
  | boolean b => booleanText b
  | empty => ""

/-- The value as a cell stores it. -/
def toCellValue : Value → CellValue
  | number x => .number x
  | text s => .text s
  | boolean b => .boolean b
  | empty => .empty

/-- The value that the text of a cell stands for: a number, a truth value, or
the text itself with its blanks. -/
def ofCellText (text : String) : Value :=
  let cs := Text.trim text.toList
  if cs.isEmpty then empty
  else match numberOf? cs with
    | some x => number x
    | none => match booleanOfText? cs with
      | some b => boolean b
      | none => .text text

end Value

end Spreadsheet.Formula

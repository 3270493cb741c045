import Spreadsheet.Calendar
import Spreadsheet.Number.Literal
import Spreadsheet.Number.Show

/-
  What a cell holds.

  Text typed into a cell is taken for the most specific value it can be read
  as: a finite number, a truth value, a date, and otherwise itself with its
  blanks. The order matters only in that each test comes before the next one;
  no text passes two of them.
-/

namespace Spreadsheet

/-- The text shown for a value that failed to compute. -/
def errorText : String := "#ERROR!"

/-- The character that introduces a formula. -/
def formulaMark : Char := '='

inductive CellValue where
  | empty
  | text (s : String)
  | number (x : Float)
  | boolean (b : Bool)
  | date (d : Date)
  /-- A computation that failed, with the message that says why. -/
  | error (message : String)

inductive CellKind where
  | text | number | formula | date | boolean | error
  deriving DecidableEq, Repr

def booleanText (b : Bool) : String := if b then "TRUE" else "FALSE"

/-- The truth value a text spells, in any case. -/
def booleanOfText? (cs : List Char) : Option Bool :=
  if Text.spells "TRUE" cs then some true
  else if Text.spells "FALSE" cs then some false
  else none

namespace CellValue

/-- The value that typed text stands for. -/
def ofInput (input : String) : CellValue :=
  let cs := Text.trim input.toList
  if cs.isEmpty then .empty
  else match Number.ofText cs with
    | some x => .number x
    | none => match booleanOfText? cs with
      | some b => .boolean b
      | none => match Date.ofText? cs with
        | some d => .date d
        | none => .text input

def isEmpty : CellValue → Bool
  | .empty => true
  | _ => false

def kind : CellValue → CellKind
  | .empty | .text _ => .text
  | .number _ => .number
  | .boolean _ => .boolean
  | .date _ => .date
  | .error _ => .error

def display : CellValue → String
  | .empty => ""
  | .text s => s
  | .number x => String.ofList (Number.cellText x)
  | .boolean b => booleanText b
  | .date d => String.ofList d.text
  | .error _ => errorText

end CellValue

end Spreadsheet

import Spreadsheet.Cell.Value

/-
  A single cell: a value, a formula, and a remembered display text.

  A formula cell keeps its formula as the source and its last result as the
  value. The display text is remembered when a result is stored or on request,
  and forgotten on every other write; `computedDisplay` is what it must equal.
-/

namespace Spreadsheet

/-- A cell. The value is absent until one is stored; an empty value stored as a
result is present. -/
structure Cell where
  stored : Option CellValue
  formula : Option String
  kind : CellKind
  shown : Option String

/-- The text of a formula as it is kept: without outer blanks, and with the
formula mark in front. -/
def formulaText (text : String) : String :=
  let cs := Text.trim text.toList
  match cs with
  | c :: _ => if c = formulaMark then String.ofList cs else String.ofList (formulaMark :: cs)
  | [] => String.singleton formulaMark

namespace Cell

def empty : Cell := ⟨none, none, .text, none⟩

/-- The cell with the given value, and a formula cell if there is a formula.
Nothing of what stood in the cell before has a part in it. -/
def ofContent (value : CellValue) (formula : Option String) : Cell where
  stored := if value.isEmpty then none else some value
  formula := formula.map formulaText
  kind := if formula.isSome then .formula else value.kind
  shown := none

/-- The stored value, and the empty one if there is none. -/
def value (c : Cell) : CellValue := c.stored.getD .empty

def isFormula (c : Cell) : Bool := c.formula.isSome

def isEmpty (c : Cell) : Bool := c.formula.isNone && c.value.isEmpty

/-- Whether no display text is remembered. -/
def isDirty (c : Cell) : Bool := c.shown.isNone

/-- The display text by formula and value alone: a formula cell without a
result shows its formula. -/
def computedDisplay (c : Cell) : String :=
  match c.stored, c.formula with
  | some v, _ => v.display
  | none, some f => f
  | none, none => ""

def display (c : Cell) : String := c.shown.getD c.computedDisplay

/-- The cell with its display text remembered. -/
def refresh (c : Cell) : Cell := { c with shown := some c.display }

def store (c : Cell) (value : CellValue) : Cell :=
  { c with stored := some value, shown := some value.display }

end Cell

end Spreadsheet

import Spreadsheet.Address.Range
import Spreadsheet.Cell

/-
  A sheet: a sparse grid of cells with an index of its formulas.

  Only addresses that were written hold a cell. Beside the cells the sheet
  keeps the formula texts by address, in row-major order, so that a
  recalculation need not look at the other cells; every operation keeps the two
  in step. A write calls the listeners of the sheet; what they are called with
  is part of the result of the write. An operation that is refused has a sheet
  and calls in its result like any other.
-/

namespace Spreadsheet

/-- Values by address, in row-major order. -/
abbrev Grid (β : Type) := Std.ExtTreeMap Address β

/-- The rows and columns of a sheet that is given none. -/
def defaultRows : UInt32 := 1000

def defaultCols : UInt32 := 26

structure Sheet where
  cells : Grid Cell
  formulas : Grid String
  /-- The number of rows. -/
  rows : UInt32
  /-- The number of columns. -/
  cols : UInt32
  /-- The registered listeners, in order of registration. -/
  listeners : List Nat
  /-- The number of the listener that is registered next: how many have been so
  far. It is not bounded here; a counter of 64 bits is the same for the first
  `2 ^ 64` registrations. -/
  nextListener : Nat

/-- Why a sheet refuses a write or cannot be made. -/
inductive SheetError where
  /-- The address lies outside the grid. -/
  | outOfBounds (address : Address) (rows cols : UInt32)
  | tooManyRows
  | tooManyColumns
  deriving DecidableEq, Repr

def SheetError.message : SheetError → String
  | outOfBounds a rows cols =>
    "Cell (" ++ toString a.row.toNat ++ ", " ++ toString a.col.toNat ++
      ") out of bounds (sheet is " ++ toString rows.toNat ++ " x " ++ toString cols.toNat ++ ")"
  | tooManyRows => "too many rows for a sheet"
  | tooManyColumns => "too many columns for a sheet"

/-- A call of a listener with the address that was written. -/
structure Call where
  listener : Nat
  address : Address
  deriving DecidableEq, Repr

/-- What a write leaves: the sheet, the cell that was written or why none was, and
the calls of the listeners in order. -/
structure Written where
  sheet : Sheet
  cell : Except SheetError Cell
  calls : List Call

/-- What an edit without calls leaves: the sheet, and whether the edit was carried
out. -/
structure Change where
  sheet : Sheet
  done : Bool

namespace Sheet

/-- The sheet without cells of the given size. -/
def ofBounds (rows cols : UInt32) : Sheet := ⟨∅, ∅, rows, cols, [], 0⟩

def empty : Sheet := ofBounds defaultRows defaultCols

def inBounds (s : Sheet) (a : Address) : Bool := a.row < s.rows && a.col < s.cols

/-- The cell at an address, and an empty one if none is stored. -/
def cellAt (s : Sheet) (a : Address) : Cell := s.cells[a]?.getD Cell.empty

/-- Writes a cell. With a formula it becomes a formula cell; without one any
formula it had is gone. Every listener is called. -/
def setCell (s : Sheet) (a : Address) (value : CellValue) (formula : Option String) : Written :=
  if s.inBounds a then
    let cell := Cell.ofContent value formula
    let formulas := match cell.formula with
      | some text => s.formulas.insert a text
      | none => s.formulas.erase a
    ⟨{ s with cells := s.cells.insert a cell, formulas }, .ok cell, s.listeners.map (⟨·, a⟩)⟩
  else ⟨s, .error (.outOfBounds a s.rows s.cols), []⟩

/-- Whether typed text is a formula: it is if its first character that is no
blank is the formula mark. -/
def isFormulaInput (text : String) : Bool :=
  (Text.trimStart text.toList).head? == some formulaMark

/-- Writes typed text: a formula as such, and any other text as the value it
stands for. -/
def setInput (s : Sheet) (a : Address) (text : String) : Written :=
  if isFormulaInput text then s.setCell a .empty (some text)
  else s.setCell a (CellValue.ofInput text) none

/-- Stores the result of the formula at an address, if a formula cell is stored
there. No listener is called. -/
def setResult (s : Sheet) (a : Address) (value : CellValue) : Change :=
  match s.cells[a]? with
  | some cell =>
    if cell.isFormula then ⟨{ s with cells := s.cells.insert a (cell.store value) }, true⟩
    else ⟨s, false⟩
  | none => ⟨s, false⟩

/-- Whether the address lies between two corners, given top left first. -/
def between (first last a : Address) : Bool :=
  first.row ≤ a.row && a.row ≤ last.row && first.col ≤ a.col && a.col ≤ last.col

/-- Empties the stored cells between two corners, and the number of them. The
cells stay stored. -/
def clear (s : Sheet) (first last : Address) : Sheet × Nat :=
  let inside := between first last
  ({ s with
      cells := s.cells.map fun a cell => if inside a then Cell.empty else cell
      formulas := s.formulas.filter fun a _ => !inside a },
    (s.cells.keys.filter inside).length)

/-- Registers a listener and gives its number, which no other listener of the
sheet has or will have. -/
def addListener (s : Sheet) : Sheet × Nat :=
  ({ s with listeners := s.listeners ++ [s.nextListener], nextListener := s.nextListener + 1 },
    s.nextListener)

/-- Removes a listener, if it is registered. -/
def removeListener (s : Sheet) (id : Nat) : Change :=
  let listeners := s.listeners.filter (· != id)
  ⟨{ s with listeners }, listeners.length != s.listeners.length⟩

def isEmpty (s : Sheet) : Bool := s.cells.toList.all fun (_, cell) => cell.isEmpty

/-- The addresses of the cells that hold a value or a formula. -/
def used (s : Sheet) : List Address :=
  (s.cells.toList.filter fun (_, cell) => !cell.isEmpty).map Prod.fst

/-- The smallest range that holds every cell with a value or a formula. -/
def usedRange? (s : Sheet) : Option Range :=
  match s.used with
  | [] => none
  | a :: as => some (as.foldl Range.extend (Range.single a))

end Sheet

end Spreadsheet

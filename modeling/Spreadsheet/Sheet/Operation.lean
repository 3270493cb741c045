import Spreadsheet.Sheet.Lines
import Spreadsheet.Sheet.Recalculation
import Spreadsheet.Sheet.Table

/-
  The operations that may change a sheet, as data.

  `run` carries out one operation. Its outcome is the sheet afterwards, the
  reply, and the calls of listeners in order.
-/

namespace Spreadsheet

inductive Operation where
  | setInput (address : Address) (text : String)
  | setCell (address : Address) (value : CellValue) (formula : Option String)
  | setResult (address : Address) (value : CellValue)
  | enter (address : Address) (text : String)
  | clear (first last : Address)
  | insertRows (first count : UInt32)
  | insertCols (first count : UInt32)
  | deleteRows (first count : UInt32)
  | deleteCols (first count : UInt32)
  | addListener
  | removeListener (id : Nat)
  | recalculateCell (address : Address)
  | recalculate (options : RecalculationOptions)

inductive Reply where
  /-- The cell that was written. -/
  | cell (c : Cell)
  /-- The value of the cell that was entered. -/
  | value (v : CellValue)
  /-- Whether the operation was carried out. -/
  | done (b : Bool)
  /-- The number of cells that were cleared. -/
  | cleared (n : Nat)
  /-- The number of the listener that was registered. -/
  | registered (id : Nat)
  /-- The result of a formula, if there was one to evaluate. -/
  | result (v : Option CellValue)
  /-- What a recalculation did. -/
  | recalculated (stats : RecalculationStats)

structure Outcome where
  sheet : Sheet
  reply : Except SheetError Reply
  calls : List Call

namespace Outcome

def ofWrite (reply : Cell → Reply) (w : Written) : Outcome := ⟨w.sheet, w.cell.map reply, w.calls⟩

def ofChange (c : Change) : Outcome := ⟨c.sheet, .ok (.done c.done), []⟩

end Outcome

/-- Carries out an operation. Where it evaluates formulas it asks the clock. -/
def Operation.run (clock : Clock) (s : Sheet) : Operation → Outcome
  | setInput a text => .ofWrite .cell (s.setInput a text)
  | setCell a value formula => .ofWrite .cell (s.setCell a value formula)
  | setResult a value => .ofChange (s.setResult a value)
  | enter a text => .ofWrite (fun c => .value c.value) (s.enter clock a text)
  | clear first last =>
    let (t, n) := s.clear first last
    ⟨t, .ok (.cleared n), []⟩
  | insertRows first count => .ofChange (s.insertRows first count)
  | insertCols first count => .ofChange (s.insertCols first count)
  | deleteRows first count => .ofChange (s.deleteRows first count)
  | deleteCols first count => .ofChange (s.deleteCols first count)
  | addListener =>
    let (t, id) := s.addListener
    ⟨t, .ok (.registered id), []⟩
  | removeListener id => .ofChange (s.removeListener id)
  | recalculateCell a =>
    let (t, value) := s.recalculateCell clock a
    ⟨t, .ok (.result value), []⟩
  | recalculate options =>
    let (t, stats) := s.recalculate options clock
    ⟨t, .ok (.recalculated stats), []⟩

end Spreadsheet

import Spreadsheet.Sheet

/-
  Sheets as tables of texts, and rectangles of cells.
-/

namespace Spreadsheet.Sheet

/-- The numbers from `first` to `last`, both included. -/
def interval (first last : UInt32) : List UInt32 :=
  (List.range' first.toNat (last.toNat + 1 - first.toNat)).map Nat.toUInt32

/-- The cells between two corners, given top left first, row by row. The second
corner is clamped to the grid. -/
def block (s : Sheet) (first last : Address) : List (List Cell) :=
  if s.rows = 0 || s.cols = 0 then []
  else
    let lastRow := min last.row (s.rows - 1)
    let lastCol := min last.col (s.cols - 1)
    if first.row > lastRow || first.col > lastCol then []
    else
      (interval first.row lastRow).map fun row =>
        (interval first.col lastCol).map fun col => s.cellAt ⟨row, col⟩

/-- The display texts from the first cell of the grid to the last row and column
in use, row by row. -/
def toTable (s : Sheet) : List (List String) :=
  match s.usedRange? with
  | none => []
  | some range =>
    (interval 0 range.bottomRight.row).map fun row =>
      (interval 0 range.bottomRight.col).map fun col => (s.cellAt ⟨row, col⟩).display

/-- Writes a row of typed texts from a column on. Blank texts are passed over, and
the first refusal ends the writing. -/
def writeRow (s : Sheet) (row : UInt32) : Nat → List String → Except SheetError Sheet
  | _, [] => .ok s
  | col, text :: texts =>
    if (Text.trim text.toList).isEmpty then writeRow s row (col + 1) texts
    else
      let written := s.setInput ⟨row, col.toUInt32⟩ text
      match written.cell with
      | .ok _ => writeRow written.sheet row (col + 1) texts
      | .error e => .error e

def writeRows (s : Sheet) : Nat → List (List String) → Except SheetError Sheet
  | _, [] => .ok s
  | row, texts :: rest => do writeRows (← s.writeRow row.toUInt32 0 texts) (row + 1) rest

/-- The sheet with the given rows of typed texts. It is at least as large as the
default, and large enough for the texts. -/
def ofTable (table : List (List String)) : Except SheetError Sheet :=
  let height := table.length
  let width := (table.map List.length).foldl max 0
  if height ≥ UInt32.size then .error .tooManyRows
  else if width ≥ UInt32.size then .error .tooManyColumns
  else
    (ofBounds (max height.toUInt32 defaultRows) (max width.toUInt32 defaultCols)).writeRows 0 table

end Spreadsheet.Sheet

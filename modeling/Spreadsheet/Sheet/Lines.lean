import Spreadsheet.Sheet

/-
  Inserting and deleting rows and columns.

  Both move whole lines of cells, so an edit is a partial map on one coordinate
  of the addresses: a cell whose coordinate has no image is dropped, and its
  formula with it. The texts of formulas are not changed.
-/

namespace Spreadsheet

def checkedAdd (x y : UInt32) : Option UInt32 :=
  if x.toNat + y.toNat < UInt32.size then some (x + y) else none

def saturatingAdd (x y : UInt32) : UInt32 := (checkedAdd x y).getD (UInt32.ofNat (UInt32.size - 1))

/-- Where a line goes when `count` lines are inserted before line `first`. -/
def opened (first count line : UInt32) : Option UInt32 :=
  if first ≤ line then checkedAdd line count else some line

/-- Where a line goes when `count` lines are deleted from line `first` on. -/
def closed (first count line : UInt32) : Option UInt32 :=
  if line < first then some line
  else if line < first + count then none
  else some (line - count)

namespace Address

def mapRow? (f : UInt32 → Option UInt32) (a : Address) : Option Address :=
  (f a.row).map fun row => { a with row }

def mapCol? (f : UInt32 → Option UInt32) (a : Address) : Option Address :=
  (f a.col).map fun col => { a with col }

end Address

/-- The grid with every entry moved, and those dropped that have nowhere to
go. -/
def Grid.moved {β : Type} (f : Address → Option Address) (g : Grid β) : Grid β :=
  .ofList (g.toList.filterMap fun (a, v) => (f a).map (·, v))

namespace Sheet

/-- The sheet with every cell and formula moved. -/
def moved (s : Sheet) (f : Address → Option Address) : Sheet :=
  { s with cells := Grid.moved f s.cells, formulas := Grid.moved f s.formulas }

/-- Inserts empty rows before a row, which may be the one after the last. -/
def insertRows (s : Sheet) (first count : UInt32) : Change :=
  if first > s.rows then ⟨s, false⟩
  else ⟨{ s.moved (Address.mapRow? (opened first count)) with
    rows := saturatingAdd s.rows count }, true⟩

/-- Inserts empty columns before a column, which may be the one after the
last. -/
def insertCols (s : Sheet) (first count : UInt32) : Change :=
  if first > s.cols then ⟨s, false⟩
  else ⟨{ s.moved (Address.mapCol? (opened first count)) with
    cols := saturatingAdd s.cols count }, true⟩

/-- Deletes rows from a row on, as many of them as there are. -/
def deleteRows (s : Sheet) (first count : UInt32) : Change :=
  if first ≥ s.rows then ⟨s, false⟩
  else
    let count := min count (s.rows - first)
    ⟨{ s.moved (Address.mapRow? (closed first count)) with rows := s.rows - count }, true⟩

/-- Deletes columns from a column on, as many of them as there are. -/
def deleteCols (s : Sheet) (first count : UInt32) : Change :=
  if first ≥ s.cols then ⟨s, false⟩
  else
    let count := min count (s.cols - first)
    ⟨{ s.moved (Address.mapCol? (closed first count)) with cols := s.cols - count }, true⟩

end Sheet

end Spreadsheet

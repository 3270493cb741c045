import Spreadsheet.Address

/-
  Rectangular ranges of cells.

  A range is kept as its top left and bottom right corner, whichever two
  corners it was given by, so equal rectangles are equal values. `cells` lists
  its addresses row by row; `next?` steps from one address to the next without
  the list, which may be far too long to build. Where a limit is checked, cells
  are counted in 64 bits.
-/

namespace Spreadsheet

/-- A non-empty rectangle of cells. -/
structure Range where
  topLeft : Address
  bottomRight : Address
  row_le : topLeft.row ≤ bottomRight.row
  col_le : topLeft.col ≤ bottomRight.col
  deriving DecidableEq

namespace Range

theorem min_le_max (a b : UInt32) : min a b ≤ max a b := by
  show (if a ≤ b then a else b) ≤ (if a ≤ b then b else a)
  split
  · assumption
  · exact UInt32.le_of_lt (UInt32.not_le.1 (by assumption))

theorem min_le_max_of_le {a b c : UInt32} (h : a ≤ b) : min a c ≤ max b c := by
  show (if a ≤ c then a else c) ≤ (if b ≤ c then c else b)
  simp only [UInt32.le_iff_toNat_le] at *
  split <;> split <;> omega

/-- The smallest rectangle that holds both addresses. -/
def spanning (a b : Address) : Range where
  topLeft := ⟨min a.row b.row, min a.col b.col⟩
  bottomRight := ⟨max a.row b.row, max a.col b.col⟩
  row_le := min_le_max a.row b.row
  col_le := min_le_max a.col b.col

def single (a : Address) : Range := ⟨a, a, UInt32.le_refl _, UInt32.le_refl _⟩

/-- The smallest range that holds a range and an address. -/
def extend (r : Range) (a : Address) : Range where
  topLeft := ⟨min r.topLeft.row a.row, min r.topLeft.col a.col⟩
  bottomRight := ⟨max r.bottomRight.row a.row, max r.bottomRight.col a.col⟩
  row_le := min_le_max_of_le r.row_le
  col_le := min_le_max_of_le r.col_le

def contains (r : Range) (a : Address) : Bool :=
  r.topLeft.row ≤ a.row && a.row ≤ r.bottomRight.row &&
    r.topLeft.col ≤ a.col && a.col ≤ r.bottomRight.col

def height (r : Range) : Nat := r.bottomRight.row.toNat - r.topLeft.row.toNat + 1

def width (r : Range) : Nat := r.bottomRight.col.toNat - r.topLeft.col.toNat + 1

def size (r : Range) : Nat := r.height * r.width

def rowCount (r : Range) : UInt64 := (r.bottomRight.row - r.topLeft.row).toUInt64 + 1

def colCount (r : Range) : UInt64 := (r.bottomRight.col - r.topLeft.col).toUInt64 + 1

/-- The number of cells in 64 bits. It is zero for the range of all addresses, whose
cells are too many by one. -/
def cellCount (r : Range) : UInt64 := r.rowCount * r.colCount

/-- The numbers from `first` on, `count` of them. -/
def run (first : UInt32) (count : Nat) : List UInt32 :=
  (List.range count).map fun i => first + i.toUInt32

def rows (r : Range) : List UInt32 := run r.topLeft.row r.height

def cols (r : Range) : List UInt32 := run r.topLeft.col r.width

/-- The addresses of the range, row by row. -/
def cells (r : Range) : List Address :=
  r.rows.flatMap fun row => r.cols.map fun col => ⟨row, col⟩

/-- The address that follows in the range: the next in the row, else the first
of the next row, else none. -/
def next? (r : Range) (a : Address) : Option Address :=
  if a.col < r.bottomRight.col then some ⟨a.row, a.col + 1⟩
  else if a.row < r.bottomRight.row then some ⟨a.row + 1, r.topLeft.col⟩
  else none

/-- At most `n` addresses, from `a` on if there is one. -/
def walk (r : Range) : Nat → Option Address → List Address
  | 0, _ => []
  | _ + 1, none => []
  | n + 1, some a => a :: walk r n (r.next? a)

/-- The first `n` addresses of the range, or all of them if there are fewer. -/
def firstCells (r : Range) (n : Nat) : List Address := walk r n (some r.topLeft)

/-- The name of a range: both corners, or the one cell it consists of. -/
def name (r : Range) : List Char :=
  if r.topLeft = r.bottomRight then r.topLeft.name
  else r.topLeft.name ++ ':' :: r.bottomRight.name

def label (r : Range) : String := String.ofList r.name

/-- The address a corner of a range names; the range as a whole is quoted if
it names none. -/
def readCorner (whole corner : List Char) : Except ReferenceError Address :=
  (Address.ofText corner).mapError (.range (String.ofList whole))

/-- The range a text names: two corners around the first colon, or one cell.
Blanks around the text and around each corner do not count. -/
def ofText (text : List Char) : Except ReferenceError Range :=
  let text := Text.trim text
  match text.span (· != ':') with
  | (first, _ :: second) => do
    let a ← readCorner text first
    let b ← readCorner text second
    return spanning a b
  | (_, []) => do
    let a ← (Address.ofText text).mapError .address
    return single a

/-- The part of the range inside a grid of the given size, if there is any. -/
def clamp (r : Range) (rows cols : UInt32) : Option Range :=
  if r.topLeft.row ≥ rows || r.topLeft.col ≥ cols then none
  else
    some (spanning r.topLeft
      ⟨min r.bottomRight.row (rows - 1), min r.bottomRight.col (cols - 1)⟩)

end Range

end Spreadsheet

import Std.Data.ExtTreeMap
import Spreadsheet.Address.Column
import Spreadsheet.Text.Blank

/-
  Addresses of cells and their A1 notation.

  An address is a row and a column, both counted from zero. Its name is the
  letters of the column followed by the row number counted from one. Addresses
  are ordered row by row, which is the order in which a sheet is read.
-/

namespace Spreadsheet

/-- The address of a cell. -/
structure Address where
  row : UInt32
  col : UInt32
  deriving DecidableEq, Repr

namespace Address

/-- Row-major order: by row, and within a row by column. -/
instance : Ord Address where
  compare := compareLex (compareOn row) (compareOn col)

instance : Std.TransOrd Address :=
  inferInstanceAs (Std.TransCmp (compareLex (compareOn row) (compareOn col)))

instance : Std.LawfulEqOrd Address where
  eq_of_compare {a b} h := by
    obtain ⟨hr, hc⟩ := Ordering.then_eq_eq.1 h
    have hr := Std.LawfulEqOrd.eq_of_compare hr
    have hc := Std.LawfulEqOrd.eq_of_compare hc
    cases a; cases b; simp_all

def name (a : Address) : List Char := Column.letters a.col ++ Text.digits (a.row.toNat + 1)

def label (a : Address) : String := String.ofList a.name

/-- The row a numeral names, counted from zero. A numeral that exceeds 64 bits
is no row number at all; one that is zero or past the last row is out of
range. -/
def readRow (text ds : List Char) : Except AddressError UInt32 :=
  let n := Text.natOfDigits ds
  if ds.isEmpty || !ds.all Text.isDigit || n ≥ UInt64.size then
    .error (.badRow (String.ofList text))
  else if n = 0 || n > Column.bound then .error (.rowOutOfRange (String.ofList text))
  else .ok (n - 1).toUInt32

/-- The address a text names: letters, then digits, and nothing else. The row
is read before the column, so it is the row that a text with two faults is
refused for. -/
def ofName (text : List Char) : Except AddressError Address := do
  let ls := text.takeWhile Text.isLetter
  if ls.isEmpty then throw (.noColumn (String.ofList text))
  let row ← readRow text (text.dropWhile Text.isLetter)
  let col ← Column.ofLetters ls
  return ⟨row, col⟩

/-- The address a text names, outer blanks aside. -/
def ofText (text : List Char) : Except AddressError Address := ofName (Text.trim text)

end Address

end Spreadsheet

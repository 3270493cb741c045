import Spreadsheet.Sheet
import Spreadsheet.Text.Case

/-
  Searching a sheet for a text.

  A cell matches if its display text holds the text that is looked for, or its
  formula does. Without regard to case both are put into small letters first,
  each as a whole.
-/

namespace Spreadsheet

/-- Whether the text occurs in the other one. -/
def Text.occursIn (needle : List Char) : List Char → Bool
  | [] => needle.isEmpty
  | c :: cs => needle.isPrefixOf (c :: cs) || Text.occursIn needle cs

namespace Sheet

/-- The form in which texts are compared: as they are, or in small letters. -/
def folded (caseSensitive : Bool) (text : String) : List Char :=
  if caseSensitive then text.toList else Text.lower text.toList

/-- Whether the cell shows the text or has it in its formula. -/
def holdsText (caseSensitive : Bool) (text : String) (cell : Cell) : Bool :=
  let needle := folded caseSensitive text
  Text.occursIn needle (folded caseSensitive cell.display) ||
    cell.formula.any fun f => Text.occursIn needle (folded caseSensitive f)

/-- The first cell from an address on, row by row, that holds the text. The
empty text is found nowhere. -/
def find? (s : Sheet) (text : String) (start : Address) (caseSensitive : Bool) : Option Address :=
  if text.isEmpty then none
  else
    (s.cells.toList.find? fun (a, cell) =>
      (compare start a).isLE && holdsText caseSensitive text cell).map Prod.fst

end Sheet

end Spreadsheet

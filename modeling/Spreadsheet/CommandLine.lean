import Spreadsheet.CommandLine.Arguments
import Spreadsheet.Sheet.Lines
import Spreadsheet.Sheet.Recalculation
import Spreadsheet.Sheet.Table

/-
  What the command line prints.

  The cells of the command are typed into a sheet that is large enough for
  them, in the order given. Then a formula is evaluated against the sheet, or
  the sheet is recalculated and written out with tabs between the cells.
-/

namespace Spreadsheet.CommandLine

structure Output where
  code : UInt32
  out : String
  err : String
  deriving DecidableEq

/-- Why a command could not be carried out: what was being done, and the
cause. -/
structure Failure where
  context : String
  cause : String

/-- The report of a failure. The lines of the cause are indented. -/
def Failure.report (f : Failure) : String :=
  "Error: " ++ f.context ++ "\n\nCaused by:\n    " ++ "\n    ".intercalate (f.cause.splitOn "\n") ++
    "\n"

def Failure.output (f : Failure) : Output := ⟨1, "", f.report⟩

def readAddress (text : String) : Except Failure Address :=
  (Address.ofName text.toList).mapError fun e =>
    ⟨"Invalid cell address '" ++ text ++ "'", e.message⟩

def typeCell (s : Sheet) (a : Address) (text : String) : Except Failure Sheet :=
  let written := s.setInput a text
  match written.cell with
  | .ok _ => .ok written.sheet
  | .error e =>
    .error ⟨"Failed to set cell (" ++ toString a.row.toNat ++ ", " ++ toString a.col.toNat ++ ")",
      e.message⟩

/-- The sheet that is large enough for the addresses, and no smaller than the
default. -/
def sheetFor (addresses : List Address) : Sheet :=
  .ofBounds (addresses.foldl (fun n a => max n (saturatingAdd a.row 1)) defaultRows)
    (addresses.foldl (fun n a => max n (saturatingAdd a.col 1)) defaultCols)

/-- The sheet with the given cells. All addresses are read before a cell is
written. -/
def sheetOf (cells : List (String × String)) : Except Failure Sheet := do
  let cells ← cells.mapM fun (address, text) => do return (← readAddress address, text)
  cells.foldlM (fun s (a, text) => typeCell s a text) (sheetFor (cells.map Prod.fst))

/-- The lines of a table, with tabs between the cells. -/
def lines (table : List (List String)) : String :=
  String.join (table.map fun row => "\t".intercalate row ++ "\n")

def evalOutput (clock : Clock) (formula : String) (cells : List (String × String))
    (precedence : Formula.Precedence) (maxDepth : Nat) : Except Failure Output := do
  let s ← sheetOf cells
  let options := { Formula.Options.default with precedence, maxDepth }
  match Formula.evaluate (s.context options clock) formula with
  | .ok v => return ⟨0, v.display ++ "\n", ""⟩
  | .error fault => return ⟨1, errorText ++ "\n", fault.message ++ "\n"⟩

def gridOutput (clock : Clock) (cells : List (String × String)) (range : Option String) :
    Except Failure Output := do
  let s ← sheetOf cells
  let (s, _) := s.recalculate .default clock
  match range with
  | none => return ⟨0, lines s.toTable, ""⟩
  | some text =>
    let range ← (Range.ofText text.toList).mapError fun e =>
      (⟨"Invalid range '" ++ text ++ "'", e.message⟩ : Failure)
    let rows := s.block range.topLeft range.bottomRight
    return ⟨0, lines (rows.map fun row => row.map Cell.display), ""⟩

def Command.run (clock : Clock) (c : Command) : Output :=
  let output := match c with
    | .eval formula cells precedence maxDepth => evalOutput clock formula cells precedence maxDepth
    | .grid cells range => gridOutput clock cells range
  match output with
  | .ok o => o
  | .error f => f.output

/-- The code of a command line that is not understood. -/
def usageCode : UInt32 := 2

end Spreadsheet.CommandLine

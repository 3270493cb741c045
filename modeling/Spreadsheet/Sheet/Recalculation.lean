import Spreadsheet.Formula.Evaluator
import Spreadsheet.Formula.Volatile
import Spreadsheet.Sheet

/-
  Evaluating the formulas of a sheet.

  A formula sees the other cells of the sheet as texts: a formula cell as its
  formula, any other cell as its display text, marked as a text where it would
  read as something else. A recalculation evaluates the formulas row by row
  against the sheet as it stands, with one memory for all of them, and stores the
  results afterwards, so none of them sees a result of the same pass. The order
  shows all the same: a cell that is in the cache takes no room among the nested
  ones, so a formula may come to a value after the cells it refers to and to a
  fault before them, and a clock may move on from one formula to the next.
-/

namespace Spreadsheet

open Formula (Context Evaluator Fault Options Value textMark)

/-- What a recalculation covers and how formulas are evaluated in it. -/
structure RecalculationOptions where
  evaluation : Options
  /-- Whether volatile formulas are evaluated; else they keep their results. -/
  includeVolatile : Bool

def RecalculationOptions.default : RecalculationOptions := ⟨Options.default, true⟩

/-- What a recalculation did. -/
structure RecalculationStats where
  formulas : Nat
  calculated : Nat
  volatile : Nat
  errors : Nat
  deriving DecidableEq, Repr

/-- The result of a formula as a cell stores it. -/
def resultValue : Except Fault Value → CellValue
  | .ok v => v.toCellValue
  | .error fault => .error fault.message

namespace Sheet

/-- A display text as formulas see it: with a text mark if it would read as a
formula or as marked. -/
def markedText (display : String) : String :=
  match Text.trimStart display.toList with
  | c :: _ =>
    if c = formulaMark || c = textMark then String.ofList (textMark :: display.toList) else display
  | [] => display

/-- The text of the cell with the given address, as formulas see it. What is no
address, lies outside the grid or is empty has none. -/
def resolve (s : Sheet) (address : String) : Option String :=
  match Address.ofName address.toList with
  | .error _ => none
  | .ok a =>
    if s.inBounds a then
      match s.formulas[a]? with
      | some formula => some formula
      | none => (s.cells[a]?.filter fun cell => !cell.isEmpty).map fun cell =>
          markedText cell.display
    else none

def context (s : Sheet) (options : Options) (clock : Clock) : Context :=
  ⟨s.resolve, some (s.rows, s.cols), clock, options⟩

/-- The value of a formula that is not stored in the sheet. -/
def evaluate (s : Sheet) (clock : Clock) (formula : String) : Except Fault Value :=
  Formula.evaluate (s.context Options.default clock) formula

def isSkipped (options : RecalculationOptions) (formula : String) : Bool :=
  !options.includeVolatile && Formula.isVolatile formula

/-- Evaluates the formulas of cells in order, each starting with the cache that
the one before it left. -/
def evaluateCells (ctx : Context) (ev : Evaluator) :
    List (Address × String) → List (Address × CellValue)
  | [] => []
  | (a, formula) :: rest =>
    let (result, ev) := ev.evalCell ctx a.label formula
    (a, resultValue result) :: evaluateCells ctx ev rest

def results (s : Sheet) (options : RecalculationOptions) (clock : Clock) :
    List (Address × CellValue) :=
  evaluateCells (s.context options.evaluation clock) Evaluator.fresh
    (s.formulas.toList.filter fun (_, formula) => !isSkipped options formula)

def setResults (s : Sheet) (rs : List (Address × CellValue)) : Sheet :=
  rs.foldl (fun s (a, value) => (s.setResult a value).sheet) s

def isError : CellValue → Bool
  | .error _ => true
  | _ => false

/-- Evaluates the formulas of the sheet and stores their results. -/
def recalculate (s : Sheet) (options : RecalculationOptions) (clock : Clock) :
    Sheet × RecalculationStats :=
  let rs := s.results options clock
  (s.setResults rs,
    { formulas := s.formulas.size
      calculated := rs.length
      volatile := (s.formulas.toList.filter fun (_, formula) => Formula.isVolatile formula).length
      errors := (rs.filter fun (_, value) => isError value).length })

/-- Evaluates the formula at an address by itself and stores its result, if there
is one. -/
def recalculateCell (s : Sheet) (clock : Clock) (a : Address) : Sheet × Option CellValue :=
  match s.formulas[a]? with
  | some formula =>
    let value := resultValue (Formula.evaluateAt (s.context Options.default clock) a.label formula)
    ((s.setResult a value).sheet, some value)
  | none => (s, none)

/-- Writes typed text and evaluates it if it is a formula. The cell in the
result is the one after the evaluation. -/
def enter (s : Sheet) (clock : Clock) (a : Address) (text : String) : Written :=
  let written := s.setInput a text
  match written.cell with
  | .error _ => written
  | .ok _ =>
    let (sheet, _) := written.sheet.recalculateCell clock a
    { written with sheet, cell := .ok (sheet.cellAt a) }

end Sheet

end Spreadsheet

import Spreadsheet.Formula.Scan

/-
  Comparisons: the six operators, and splitting an expression at the first one
  it exposes.
-/

namespace Spreadsheet.Formula

inductive Comparison where
  | equal | notEqual | less | lessEqual | greater | greaterEqual
  deriving DecidableEq, Repr

namespace Comparison

def holds : Comparison → Ordering → Bool
  | equal, o => o == .eq
  | notEqual, o => o != .eq
  | less, o => o == .lt
  | lessEqual, o => o != .gt
  | greater, o => o == .gt
  | greaterEqual, o => o != .lt

def symbol : Comparison → List Char
  | equal => ['=']
  | notEqual => ['<', '>']
  | less => ['<']
  | lessEqual => ['<', '=']
  | greater => ['>']
  | greaterEqual => ['>', '=']

/-- The operator a text starts with, the longest one, and the text after it. -/
def ofText? : List Char → Option (Comparison × List Char)
  | '<' :: '=' :: cs => some (lessEqual, cs)
  | '<' :: '>' :: cs => some (notEqual, cs)
  | '<' :: cs => some (less, cs)
  | '>' :: '=' :: cs => some (greaterEqual, cs)
  | '>' :: cs => some (greater, cs)
  | '=' :: cs => some (equal, cs)
  | _ => none

/-- Whether an operator may start with the character. -/
def isMark (c : Char) : Bool := c == '<' || c == '>' || c == '='

/-- The two sides of an expression and the operator between them: the first
exposed one. There is no comparison if nothing precedes it. -/
def split? (expr : List Char) : Option (List Char × Comparison × List Char) :=
  let before := (Scan.start.mark expr).takeWhile fun (c, exposed) => !(exposed && isMark c)
  let left := Text.trim (expr.take before.length)
  match ofText? (expr.drop before.length) with
  | some (op, right) => if left.isEmpty then none else some (left, op, Text.trim right)
  | none => none

end Comparison

end Spreadsheet.Formula

import Spreadsheet.Formula.Builtin
import Spreadsheet.Formula.Shape

/-
  Volatile formulas: those that call a function whose value changes with time.

  Whether a formula is volatile is read off its text without evaluating it.
  What stands between two quotes is left out; in the rest, every name before an
  opening parenthesis counts as called.
-/

namespace Spreadsheet.Formula

/-- The text without the parts between two quotes, and without these quotes. A
quote that no other follows stays, with what comes after it. `held` holds the
text since the last opening quote, read backwards. -/
def withoutQuoted (held : Option (List Char)) : List Char → List Char
  | [] =>
    match held with
    | none => []
    | some ds => quoteMark :: ds.reverse
  | c :: cs =>
    match held with
    | none => if c = quoteMark then withoutQuoted (some []) cs else c :: withoutQuoted none cs
    | some ds =>
      if c = quoteMark then withoutQuoted none cs else withoutQuoted (some (c :: ds)) cs

/-- The names before the opening parentheses of a text. `word` holds the
characters of a name up to here, read backwards; a name starts at its first
capital. -/
def calledNames (word : List Char) : List Char → List (List Char)
  | [] => []
  | c :: cs =>
    if c = '(' then word.reverse.dropWhile (!Text.isCapital ·) :: calledNames [] cs
    else if isNameChar c then calledNames (c :: word) cs
    else calledNames [] cs

def isVolatile (formula : String) : Bool :=
  (calledNames [] (withoutQuoted none (exprOf formula.toList))).any fun name =>
    (Builtin.ofName? name).any (·.signature.isVolatile)

end Spreadsheet.Formula

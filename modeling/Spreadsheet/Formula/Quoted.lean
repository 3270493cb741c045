import Spreadsheet.Formula.Scan

/-
  Text literals: a text between quotes, in which a quote is written twice.
  Reading a literal undoes writing one.
-/

namespace Spreadsheet.Formula.Quoted

def doubled : List Char → List Char
  | [] => []
  | c :: cs => if c = quoteMark then quoteMark :: quoteMark :: doubled cs else c :: doubled cs

def literal (text : List Char) : List Char := quoteMark :: (doubled text ++ [quoteMark])

/-- Undoes the doubling of quotes. A quote that stands alone would end the
literal early, so there is no text then. -/
def undoubled? : List Char → Option (List Char)
  | [] => some []
  | [c] => if c = quoteMark then none else some [c]
  | c :: d :: cs =>
    if c = quoteMark then
      if d = quoteMark then (undoubled? cs).map (quoteMark :: ·) else none
    else (undoubled? (d :: cs)).map (c :: ·)

/-- The text of an expression that is one literal from its first character to
its last. -/
def text? : List Char → Option (List Char)
  | [] => none
  | c :: cs =>
    if c = quoteMark && cs.getLast? == some quoteMark then undoubled? cs.dropLast else none

theorem undoubled?_doubled (text : List Char) : undoubled? (doubled text) = some text := by
  induction text with
  | nil => rfl
  | cons c cs ih =>
    by_cases h : c = quoteMark
    · simp [doubled, undoubled?, h, ih]
    · cases hd : doubled cs with
      | nil =>
        rw [hd] at ih
        simp only [undoubled?, Option.some.injEq] at ih
        simp [doubled, undoubled?, h, ← ih]
      | cons d ds => rw [hd] at ih; simp [doubled, undoubled?, h, hd, ih]

theorem text?_literal (text : List Char) : text? (literal text) = some text := by
  simp [text?, literal, undoubled?_doubled]

end Spreadsheet.Formula.Quoted

import Spreadsheet.Formula.Arithmetic
import Spreadsheet.Formula.Comparison
import Spreadsheet.Formula.Quoted
import Spreadsheet.Formula.Value

/-
  The shape of an expression.

  There is no syntax tree. An expression is a text, and `Shape.ofExpr` says
  what it is at its outermost level and which smaller texts it consists of. The
  order of the tests is part of the notation: what is a call is no group, what
  is a group is no comparison, and so on.
-/

namespace Spreadsheet.Formula

/-- The outermost level of an expression. -/
inductive Shape where
  | blank
  | literal (text : List Char)
  | call (name arguments : List Char)
  | group (inside : List Char)
  | comparison (left : List Char) (op : Comparison) (right : List Char)
  | chain (c : Chain)
  | malformed (fault : Fault)
  | range (text : List Char)
  | reference (address : List Char)
  | truth (b : Bool)
  | negated (operand : List Char)
  | affirmed (operand : List Char)
  | number (x : Float)

/-- The text after a column name and a row number, if it starts with these. -/
def afterAddress? (cs : List Char) : Option (List Char) :=
  let ds := cs.dropWhile Text.isCapital
  if (cs.takeWhile Text.isCapital).isEmpty || (ds.takeWhile Text.isDigit).isEmpty then none
  else some (ds.dropWhile Text.isDigit)

/-- Whether the text has the form of an address: capitals, then digits. -/
def isAddressForm (cs : List Char) : Bool := afterAddress? cs == some []

/-- Whether the text has the form of a range: two addresses and a colon, with
any blanks around the colon. -/
def isRangeForm (cs : List Char) : Bool :=
  match (afterAddress? cs).map Text.trimStart with
  | some (':' :: rest) => isAddressForm (Text.trimStart rest)
  | _ => false

/-- The shape of an expression that is neither a literal, a call, a group, a
comparison nor a chain. -/
def Shape.ofAtom (expr : List Char) : Shape :=
  if isRangeForm expr then .range expr
  else if isAddressForm expr then .reference expr
  else if expr = ['T', 'R', 'U', 'E'] then .truth true
  else if expr = ['F', 'A', 'L', 'S', 'E'] then .truth false
  else match expr, numberOf? expr with
    | '-' :: operand, none => .negated operand
    | '+' :: operand, _ => .affirmed operand
    | _, x => .number (x.getD 0.0)

def Shape.ofExpr (expr : List Char) : Shape :=
  if expr.isEmpty then .blank
  else if let some text := Quoted.text? expr then .literal text
  else if let some (name, arguments) := call? expr then .call name arguments
  else if let some inside := group? expr then .group (Text.trim inside)
  else if let some (left, op, right) := Comparison.split? expr then .comparison left op right
  else match Chain.ofExpr? expr with
    | .error fault => .malformed fault
    | .ok (some c) => .chain c
    | .ok none => Shape.ofAtom expr

/-- Puts everything outside quotes into capitals. -/
def capitalized (quoted : Bool) : List Char → List Char
  | [] => []
  | c :: cs =>
    if c = quoteMark then c :: capitalized (!quoted) cs
    else if quoted then c :: capitalized quoted cs
    else Text.upperChar c ++ capitalized quoted cs

/-- The expression of a formula: without outer blanks, without one formula mark
in front, and in capitals outside text literals. -/
def exprOf (formula : List Char) : List Char :=
  let cs := Text.trim formula
  let body := match cs with
    | c :: rest => if c = formulaMark then rest else cs
    | [] => cs
  capitalized false (Text.trim body)

end Spreadsheet.Formula

import Spreadsheet.Formula.Fault
import Spreadsheet.Formula.Scan

/-
  Arithmetic: the five operators, chains of operands between them, and the two
  ways to evaluate a chain.

  A chain is split off the text of an expression by one scan. A plus or minus
  that has no operand before it is a sign and stays with the operand after it;
  so is one right after the mantissa of a number in scientific notation.
-/

namespace Spreadsheet.Formula

inductive Operator where
  | add | subtract | multiply | divide | power
  deriving DecidableEq, Repr

namespace Operator

def symbol : Operator → Char
  | add => '+'
  | subtract => '-'
  | multiply => '*'
  | divide => '/'
  | power => '^'

/-- The operator with the given symbol. -/
def ofChar? : Char → Option Operator
  | '+' => some add
  | '-' => some subtract
  | '*' => some multiply
  | '/' => some divide
  | '^' => some power
  | _ => none

/-- How strongly the operator binds under standard precedence. -/
def precedence : Operator → Nat
  | add | subtract => 1
  | multiply | divide => 2
  | power => 3

/-- Whether a chain of the operator groups to the right. -/
def isRightAssociative : Operator → Bool
  | power => true
  | _ => false

/-- Whether the operator can also be the sign of an operand. -/
def isSign : Operator → Bool
  | add | subtract => true
  | _ => false

/-- Whether `left`, standing before `right`, is applied first. -/
def bindsBefore (left right : Operator) : Bool :=
  right.precedence < left.precedence ||
    (right.precedence == left.precedence && !right.isRightAssociative)

def apply (op : Operator) (x y : Float) : Except Fault Float :=
  match op with
  | add => .ok (x + y)
  | subtract => .ok (x - y)
  | multiply => .ok (x * y)
  | divide => if y == 0.0 then .error .divisionByZero else .ok (x / y)
  | power => .ok (x.pow y)

end Operator

/-- Operands with an operator between each and the next. -/
structure Chain where
  first : List Char
  links : List (Operator × List Char)
  deriving DecidableEq, Repr

namespace Chain

def operands (c : Chain) : List (List Char) := c.first :: c.links.map Prod.snd

def operators (c : Chain) : List Operator := c.links.map Prod.fst

/-- Whether the text is the mantissa of a number and the mark of its exponent,
so that a sign after it belongs to the exponent. -/
def isMantissa (cs : List Char) : Bool :=
  match cs.dropWhile Text.isDigit with
  | ['E'] => !(cs.takeWhile Text.isDigit).isEmpty
  | '.' :: rest => !(rest.takeWhile Text.isDigit).isEmpty && rest.dropWhile Text.isDigit == ['E']
  | _ => false

/-- Whether an operator after the pending operand is a sign. -/
def isSignAfter (pending : List Char) (op : Operator) : Bool :=
  op.isSign && (pending.isEmpty || isMantissa pending)

/-- Cuts a marked text at its exposed operators. `pending` holds the characters
of the current operand, read backwards. -/
def cut (pending : List Char) : List (Char × Bool) → Chain
  | [] => ⟨Text.trim pending.reverse, []⟩
  | (c, exposed) :: cs =>
    match if exposed then Operator.ofChar? c else none with
    | none => cut (c :: pending) cs
    | some op =>
      let operand := Text.trim pending.reverse
      if isSignAfter operand op then cut (c :: pending) cs
      else
        let rest := cut [] cs
        ⟨operand, (op, rest.first) :: rest.links⟩

/-- The fault of a chain with an operand missing, the first one counting. -/
def missing? (expr : String) (operand : List Char) : List (Operator × List Char) → Option Fault
  | [] => if operand.isEmpty then some (.missingOperandAtEnd expr) else none
  | (op, next) :: links =>
    if operand.isEmpty then some (.missingOperandBefore op.symbol expr)
    else missing? expr next links

/-- The chain an expression is, or none if it exposes no binary operator. -/
def ofExpr? (expr : List Char) : Except Fault (Option Chain) :=
  let chain := cut [] (Scan.start.mark expr)
  if chain.links.isEmpty then .ok none
  else match missing? (String.ofList expr) chain.first chain.links with
    | some fault => .error fault
    | none => .ok (some chain)

/-- Applies the operators strictly from left to right. -/
def foldLeft (x : Float) : List (Operator × Float) → Except Fault Float
  | [] => .ok x
  | (op, y) :: links => do foldLeft (← op.apply x y) links

/-- Applies the waiting operators that bind before `op`, the latest first.
Each waits with its left operand; `x` is the right operand of the latest. -/
def settle (op : Operator) :
    List (Float × Operator) → Float → Except Fault (List (Float × Operator) × Float)
  | [], x => .ok ([], x)
  | (w, waiting) :: rest, x =>
    if waiting.bindsBefore op then do settle op rest (← waiting.apply w x)
    else .ok ((w, waiting) :: rest, x)

/-- Applies all waiting operators, the latest first. -/
def settleAll : List (Float × Operator) → Float → Except Fault Float
  | [], x => .ok x
  | (w, waiting) :: rest, x => do settleAll rest (← waiting.apply w x)

/-- Applies the operators by precedence, in one pass from left to right. -/
def foldWaiting (waiting : List (Float × Operator)) (x : Float) :
    List (Operator × Float) → Except Fault Float
  | [] => settleAll waiting x
  | (op, y) :: links => do
    let (waiting, x) ← settle op waiting x
    foldWaiting ((x, op) :: waiting) y links

/-- Applies the operators by standard precedence: powers from right to left,
then products and quotients, then sums and differences from left to right. -/
def foldStandard (x : Float) (links : List (Operator × Float)) : Except Fault Float :=
  foldWaiting [] x links

end Chain

inductive Precedence where
  /-- The leftmost: `1+2*3` is 9. -/
  | leftToRight
  /-- The one that binds most: `1+2*3` is 7. -/
  | standard
  deriving DecidableEq, Repr

def Precedence.fold (p : Precedence) (x : Float) (links : List (Operator × Float)) :
    Except Fault Float :=
  match p with
  | .leftToRight => Chain.foldLeft x links
  | .standard => Chain.foldStandard x links

end Spreadsheet.Formula

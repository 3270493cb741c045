import Spreadsheet.Formula.Scope

/-
  Evaluating formulas.

  Two limits bound the recursion, and each is a parameter of a function by
  recursion on it: the levels of one expression (`levels`), and the formula
  cells inside one another (`cellFormula`). Entering a cell starts a new count
  of levels. The cells being evaluated are passed down as a path, so the path
  and the level are what they were when a part is done, whatever became of it;
  the memory is the only state.
-/

namespace Spreadsheet.Formula

/-- How many levels of parentheses, calls and operators one formula may
have. -/
def levelLimit : Nat := 128

/-- The value of an expression that may have `n` levels. `formula` evaluates
the formulas of other cells. -/
def levels (ctx : Context) (formula : String → List Char → Run Value) :
    Nat → List Char → Run Value
  | 0, expr => throw (.nestedTooDeep levelLimit (String.ofList expr))
  | n + 1, expr =>
    let scope : Scope := ⟨ctx, levels ctx formula n, formula⟩
    scope.shape (Shape.ofExpr (Text.trim expr))

/-- The name under which the value of a cell is kept. -/
def cacheKey (address : String) : String := Text.uppercased (Text.trimmed address)

/-- The value of the formula of the cell at an address, with room for `n` cells
inside one another, this one included. A value in the cache is the answer;
else a cell that is being evaluated is refused, then one there is no room for.
A value found is put into the cache. -/
def cellFormula (ctx : Context) : Nat → List String → String → List Char → Run Value
  | 0, path, address, _ => do
    let key := cacheKey address
    match (← get).cache[key]? with
    | some v => return v
    | none =>
      if key ∈ path then throw (.circular path key)
      else throw (.tooManyNested ctx.options.maxDepth key)
  | n + 1, path, address, formula => do
    let key := cacheKey address
    match (← get).cache[key]? with
    | some v => return v
    | none =>
      if key ∈ path then throw (.circular path key)
      else
        let v ← levels ctx (cellFormula ctx n (path ++ [key])) levelLimit (exprOf formula)
        modify (·.insert key v)
        return v

/-- The state of an evaluation: the cells being evaluated, outermost first, how
many levels of the current expression have been entered, and the memory, whose
values stand for as long as no cell changes. -/
structure Evaluator extends Memory where
  path : List String
  depth : Nat

namespace Evaluator

/-- The state before anything is evaluated. -/
def fresh : Evaluator := ⟨∅, [], 0⟩

variable (ctx : Context) (ev : Evaluator)

def run {α : Type} (r : Run α) : Except Fault α × Evaluator :=
  match r ev.toMemory with
  | .ok a m => (.ok a, { ev with toMemory := m })
  | .error fault m => (.error fault, { ev with toMemory := m })

/-- How formulas of other cells are evaluated in this state. -/
def formulaOf : String → List Char → Run Value :=
  cellFormula ctx (ctx.options.maxDepth - ev.path.length) ev.path

/-- How an expression is evaluated in this state. -/
def exprRun : List Char → Run Value := levels ctx (ev.formulaOf ctx) (levelLimit - ev.depth)

/-- What an expression can ask for in this state. -/
def scope : Scope := ⟨ctx, ev.exprRun ctx, ev.formulaOf ctx⟩

def evalExpr (expr : String) : Except Fault Value × Evaluator := ev.run (ev.exprRun ctx expr.toList)

def evalFormula (formula : String) : Except Fault Value × Evaluator :=
  ev.run (ev.exprRun ctx (exprOf formula.toList))

def evalCell (address formula : String) : Except Fault Value × Evaluator :=
  ev.run (ev.formulaOf ctx address formula.toList)

/-- Evaluates an expression to a number. -/
def evalNumber (expr : String) : Except Fault Float × Evaluator :=
  ev.run ((ev.scope ctx).number expr.toList)

/-- Evaluates an argument of a function to its values. -/
def expand (argument : String) : Except Fault (List Value) × Evaluator :=
  ev.run ((ev.scope ctx).expand argument.toList)

end Evaluator

/-- The value of a formula. -/
def evaluate (ctx : Context) (formula : String) : Except Fault Value :=
  (Evaluator.fresh.evalFormula ctx formula).1

/-- The value of the formula of the cell at an address. A reference back to the
address is circular. -/
def evaluateAt (ctx : Context) (address formula : String) : Except Fault Value :=
  (Evaluator.fresh.evalCell ctx address formula).1

end Spreadsheet.Formula

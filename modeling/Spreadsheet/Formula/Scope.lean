import Std.Data.HashMap
import Spreadsheet.Address.Range
import Spreadsheet.Formula.Aggregate
import Spreadsheet.Formula.Arithmetic
import Spreadsheet.Formula.Builtin
import Spreadsheet.Formula.Shape

/-
  What an expression can see while it is evaluated.

  A `Context` says where the texts of cells come from, how large the grid is
  and which clock is asked for the time. A `Run` is a computation that may fail
  and that fills a cache of cell values; what it keeps stays when it fails. The
  clock is asked anew for every use of the time, so a run also counts how often
  it has been. A `Scope` adds the two ways in which an expression asks for more
  evaluation: of a part of itself, and of the formula of another cell. The
  functions of this module are written against these two, so none of them is
  recursive.
-/

namespace Spreadsheet.Formula

structure Options where
  precedence : Precedence
  /-- How many formula cells may be evaluated inside one another. -/
  maxDepth : Nat
  /-- How many cells a range argument may have inside the grid. -/
  maxRangeCells : Nat
  deriving DecidableEq

def Options.default : Options := ⟨.leftToRight, 256, 1000000⟩

/-- Where an evaluation takes place. -/
structure Context where
  /-- The text of the cell with the given address, if the cell holds one. -/
  resolve : String → Option String
  /-- The rows and columns of the grid, if it has an end. -/
  bounds : Option (UInt32 × UInt32)
  clock : Clock
  options : Options

/-- The values of formula cells by address. -/
abbrev Cache := Std.HashMap String Value

/-- What an evaluation keeps. -/
structure Memory where
  cache : Cache
  /-- How often the clock has been asked. -/
  readings : Nat

namespace Memory

instance : EmptyCollection Memory := ⟨⟨∅, 0⟩⟩

def insert (m : Memory) (key : String) (v : Value) : Memory := { m with cache := m.cache.insert key v }

@[simp] theorem cache_empty : (∅ : Memory).cache = ∅ := rfl

@[simp] theorem cache_insert (m : Memory) (key : String) (v : Value) :
    (m.insert key v).cache = m.cache.insert key v := rfl

@[simp] theorem readings_insert (m : Memory) (key : String) (v : Value) :
    (m.insert key v).readings = m.readings := rfl

end Memory

/-- A computation that reads and fills the cache and may ask the clock. A fault
keeps what there is by then. -/
abbrev Run := EStateM Fault Memory

/-- The time, as the clock reads it when it is asked once more. -/
def Context.now (ctx : Context) : Run Moment :=
  modifyGet fun m => (ctx.clock.reading m.readings, { m with readings := m.readings + 1 })

theorem Context.now_apply (ctx : Context) (m : Memory) :
    ctx.now m = .ok (ctx.clock.reading m.readings) { m with readings := m.readings + 1 } := rfl

/-- The character before a cell's text that makes it a text whatever follows. -/
def textMark : Char := '\x27'

/-- What an expression can ask for. -/
structure Scope where
  ctx : Context
  /-- The value of a part of the expression. -/
  expr : List Char → Run Value
  /-- The value of the formula of the cell at an address. -/
  formula : String → List Char → Run Value

namespace Scope

variable (s : Scope)

/-- The value of the text of the cell at an address: the text after a text
mark, the value of a formula, or what the text stands for. -/
def cellText (address text : String) : Run Value :=
  match Text.trim text.toList with
  | c :: cs =>
    if c = textMark then pure (.text (String.ofList cs))
    else if c = formulaMark then s.formula address (c :: cs)
    else pure (Value.ofCellText text)
  | [] => pure (Value.ofCellText text)

def cell (address : String) : Run Value := do
  match (← get).cache[address]? with
  | some v => return v
  | none =>
    match s.ctx.resolve address with
    | none => return .empty
    | some text => s.cellText address text

/-- The value of a part of the expression as a number. -/
def number (expr : List Char) : Run Float := do return (← s.expr expr).toNumber

/-- The values of the cells of a range, row by row. The range is clamped to the
grid before its cells are counted. `text` is the range as it was written. -/
def rangeCells (text : List Char) (range : Range) : Run (List Value) :=
  let clamped := match s.ctx.bounds with
    | some (rows, cols) => range.clamp rows cols
    | none => some range
  match clamped with
  | none => pure []
  | some range =>
    let count := range.cellCount.toNat
    if count > s.ctx.options.maxRangeCells then
      throw (.rangeTooLarge (String.ofList text) count s.ctx.options.maxRangeCells)
    else range.cells.mapM fun a => s.cell a.label

/-- The values of an argument: those of the cells of a range, or the one value
of any other expression. -/
def expand (argument : List Char) : Run (List Value) :=
  let text := Text.trim argument
  if isRangeForm text then
    match Range.ofText text with
    | .ok range => s.rangeCells text range
    | .error cause => throw (.badReference cause)
  else do return [← s.expr text]

def expandAll (arguments : List (List Char)) : Run (List Value) := do
  return (← arguments.mapM s.expand).flatten

/-- The value of a function of values. -/
def aggregate (f : List Value → Float) (arguments : List (List Char)) : Run Value := do
  return .number (f (← s.expandAll arguments))

/-- The date given by three arguments. The first one that is no part of a date
ends the evaluation with the empty text. -/
def date (year month day : List Char) : Run Value := do
  let some y := datePart? (← s.expr year) | return .text ""
  let some m := datePart? (← s.expr month) | return .text ""
  let some d := datePart? (← s.expr day) | return .text ""
  return .text (dateText y m d)

/-- The value of a call of a built-in function. -/
def apply : Builtin → List (List Char) → Run Value
  | .sum, args => s.aggregate sumOf args
  | .average, args => s.aggregate averageOf args
  | .count, args => s.aggregate countOf args
  | .max, args => s.aggregate maxOf args
  | .min, args => s.aggregate minOf args
  | .round, [x] => do return .number (rounded (← s.number x) 0)
  | .round, [x, places] => do
    let x ← s.number x
    return .number (rounded x (placesOf (← s.number places)))
  | .abs, [x] => do return .number (← s.number x).abs
  | .sqrt, [x] => do return .number (← s.number x).sqrt
  | .power, [x, y] => do
    let x ← s.number x
    return .number (x.pow (← s.number y))
  | .choose, [test, yes] => do
    if (← s.expr test).isTrue then s.expr yes else return .text ""
  | .choose, [test, yes, no] => do
    if (← s.expr test).isTrue then s.expr yes else s.expr no
  | .concatenate, args => do return .text (concatenationOf (← s.expandAll args))
  | .now, [] => do return .text (String.ofList (← s.ctx.now).text)
  | .date, [year, month, day] => s.date year month day
  | b, args => throw (.wrongArity b.signature.name b.signature.arity args.length)

/-- The value of a call. The name is looked up before the arguments are
counted, and they are counted before one is evaluated. -/
def call (name arguments : List Char) : Run Value :=
  match Builtin.ofName? name with
  | none => throw (.unknownFunction (String.ofList name))
  | some b =>
    let args := Formula.arguments arguments
    match b.signature.checkArity args.length with
    | .error fault => throw fault
    | .ok () => s.apply b args

/-- The value of an expression of the given shape. Both sides of a comparison
and all operands of a chain are evaluated, left to right, before anything is
computed from them. -/
def shape : Shape → Run Value
  | .blank => return .empty
  | .literal text => return .text (String.ofList text)
  | .call name arguments => s.call name arguments
  | .group inside => s.expr inside
  | .comparison left op right => do
    let x ← s.expr left
    let y ← s.expr right
    return .boolean (op.ofValues x y)
  | .chain c => do
    let x ← s.number c.first
    let links ← c.links.mapM fun (op, operand) => do return (op, ← s.number operand)
    match s.ctx.options.precedence.fold x links with
    | .ok z => return .number z
    | .error fault => throw fault
  | .malformed fault => throw fault
  | .range text => throw (.rangeAsValue (String.ofList text))
  | .reference address => s.cell (String.ofList address)
  | .truth b => return .boolean b
  | .negated operand => do return .number (-(← s.number operand))
  | .affirmed operand => do return .number (← s.number operand)
  | .number x => return .number x

end Scope

end Spreadsheet.Formula

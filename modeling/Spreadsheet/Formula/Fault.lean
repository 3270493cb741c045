import Spreadsheet.Address.Error

/-
  Why a formula has no value, and how that is worded.

  Each way to fail is a constructor that carries what the wording quotes.
  Faults fall into six kinds, and the message starts with the name of its
  kind.
-/

namespace Spreadsheet.Formula

/-- How many arguments a function takes. -/
structure Arity where
  least : Nat
  /-- Without a greatest number there may be any number of arguments. -/
  most : Option Nat
  deriving DecidableEq, Repr

namespace Arity

def accepts (a : Arity) (n : Nat) : Bool := a.least ≤ n && a.most.all (n ≤ ·)

def text (a : Arity) : String :=
  match a.most with
  | none => "at least " ++ toString a.least
  | some most =>
    if most = a.least then toString most else toString a.least ++ " to " ++ toString most

end Arity

/-- Why a formula has no value. -/
inductive Fault where
  /-- A binary operator with nothing before it. -/
  | missingOperandBefore (operator : Char) (expr : String)
  /-- A binary operator with nothing after it. -/
  | missingOperandAtEnd (expr : String)
  /-- More parentheses, calls and operators inside one another than allowed. -/
  | nestedTooDeep (limit : Nat) (expr : String)
  /-- A division whose divisor is zero. -/
  | divisionByZero
  /-- A range argument with more cells than allowed. -/
  | rangeTooLarge (range : String) (size limit : Nat)
  /-- A range where a single value is needed. -/
  | rangeAsValue (range : String)
  /-- A range argument that names no range of cells. -/
  | badReference (cause : ReferenceError)
  /-- A call of a function that does not exist. -/
  | unknownFunction (name : String)
  /-- A call with too few or too many arguments. -/
  | wrongArity (function : String) (arity : Arity) (given : Nat)
  /-- A reference to a cell whose formula is being evaluated. `path` lists the
  cells being evaluated, outermost first. -/
  | circular (path : List String) (address : String)
  /-- More formula cells referring to one another than allowed. -/
  | tooManyNested (limit : Nat) (address : String)
  deriving DecidableEq, Repr

inductive FaultKind where
  | parse | evaluation | address | unknownFunction | argumentCount | circularReference
  deriving DecidableEq, Repr

namespace Fault

def kind : Fault → FaultKind
  | missingOperandBefore .. | missingOperandAtEnd .. | nestedTooDeep .. => .parse
  | divisionByZero | rangeTooLarge .. | rangeAsValue .. => .evaluation
  | badReference .. => .address
  | unknownFunction .. => .unknownFunction
  | wrongArity .. => .argumentCount
  | circular .. | tooManyNested .. => .circularReference

/-- What a message of the kind starts with. -/
def heading : FaultKind → String
  | .parse => "Parse error: "
  | .evaluation => "Evaluation error: "
  | .address => "Invalid address: "
  | .unknownFunction => "Unknown function: "
  | .argumentCount => "Wrong number of arguments for "
  | .circularReference => "Circular reference: "

/-- What went wrong, without the kind of fault. -/
def detail : Fault → String
  | missingOperandBefore c expr =>
    "missing operand before '" ++ c.toString ++ "' in '" ++ expr ++ "'"
  | missingOperandAtEnd expr => "missing operand at end of '" ++ expr ++ "'"
  | nestedTooDeep limit expr =>
    "expression nested deeper than " ++ toString limit ++ " levels: '" ++ expr ++ "'"
  | divisionByZero => "division by zero"
  | rangeTooLarge range size limit =>
    "range " ++ range ++ " spans " ++ toString size ++ " cells, more than the limit of " ++
      toString limit
  | rangeAsValue range => "range " ++ range ++ " can only be used as a function argument"
  | badReference cause => cause.message
  | unknownFunction name => name
  | wrongArity function arity given =>
    function ++ ": expected " ++ arity.text ++ ", got " ++ toString given
  | circular path address => " -> ".intercalate (path ++ [address])
  | tooManyNested limit address =>
    "more than " ++ toString limit ++ " formula cells nested while evaluating " ++ address

def message (e : Fault) : String := heading e.kind ++ e.detail

end Fault

end Spreadsheet.Formula

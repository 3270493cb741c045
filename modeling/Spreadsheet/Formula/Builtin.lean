import Spreadsheet.Formula.Fault
import Spreadsheet.Text.Case

/-
  The functions a formula may call: their names, how many arguments they take,
  and whether their value changes with time.

  A `FunctionTable` looks functions up by name in any case. The table of the
  built-in functions is fixed; other tables can be made by adding to it.
-/

namespace Spreadsheet.Formula

structure Signature where
  name : String
  arity : Arity
  /-- Whether the function may give another value when it is called again. -/
  isVolatile : Bool
  deriving DecidableEq, Repr

/-- The fault of a call with the given number of arguments, if it is one. -/
def Signature.checkArity (f : Signature) (given : Nat) : Except Fault Unit :=
  if f.arity.accepts given then .ok () else .error (.wrongArity f.name f.arity given)

structure FunctionTable where
  /-- Names in capitals with their functions, the latest first. -/
  entries : List (String × Signature)

namespace FunctionTable

/-- The function with the given name, in any case. -/
def find? (t : FunctionTable) (name : String) : Option Signature :=
  t.entries.lookup (Text.uppercased name)

/-- The table with a function added, in place of one of the same name. -/
def insert (t : FunctionTable) (f : Signature) : FunctionTable :=
  ⟨(Text.uppercased f.name, f) :: t.entries⟩

end FunctionTable

inductive Builtin where
  | sum | average | count | max | min | round | abs | sqrt | power
  | choose | concatenate | now | date
  deriving DecidableEq, Repr

namespace Builtin

def all : List Builtin :=
  [sum, average, count, max, min, round, abs, sqrt, power, choose, concatenate, now, date]

/-- The name, the arguments and the volatility of a built-in function. Only the
current time is volatile. -/
def signature : Builtin → Signature
  | sum => ⟨"SUM", ⟨1, none⟩, false⟩
  | average => ⟨"AVERAGE", ⟨1, none⟩, false⟩
  | count => ⟨"COUNT", ⟨1, none⟩, false⟩
  | max => ⟨"MAX", ⟨1, none⟩, false⟩
  | min => ⟨"MIN", ⟨1, none⟩, false⟩
  | round => ⟨"ROUND", ⟨1, some 2⟩, false⟩
  | abs => ⟨"ABS", ⟨1, some 1⟩, false⟩
  | sqrt => ⟨"SQRT", ⟨1, some 1⟩, false⟩
  | power => ⟨"POWER", ⟨2, some 2⟩, false⟩
  | choose => ⟨"IF", ⟨2, some 3⟩, false⟩
  | concatenate => ⟨"CONCATENATE", ⟨1, none⟩, false⟩
  | now => ⟨"NOW", ⟨0, some 0⟩, true⟩
  | date => ⟨"DATE", ⟨3, some 3⟩, false⟩

/-- The built-in function with the given name. Names in formulas are in
capitals already. -/
def ofName? (name : List Char) : Option Builtin :=
  all.find? fun b => b.signature.name.toList == name

def table : FunctionTable := all.foldl (fun t b => t.insert b.signature) ⟨[]⟩

end Builtin

end Spreadsheet.Formula

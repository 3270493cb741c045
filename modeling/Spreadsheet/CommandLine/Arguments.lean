import Spreadsheet.Formula.Scope

/-
  The arguments of the command line.

  There are two commands: `eval` with one formula, and `grid`. Both take cells
  as ADDRESS=TEXT, and each has options of its own. Options may stand anywhere
  after the command, in the long form, in the short form, and several short
  ones in one argument; two hyphens end them. An argument that is not
  understood makes the whole command line void.
-/

namespace Spreadsheet.CommandLine

/-- What the command line asks for. -/
inductive Command where
  /-- The value of a formula over the given cells. -/
  | eval (formula : String) (cells : List (String × String)) (precedence : Formula.Precedence)
    (maxDepth : Nat)
  /-- The given cells after a recalculation, or a range of them. -/
  | grid (cells : List (String × String)) (range : Option String)
  deriving DecidableEq

inductive Verb where
  | eval | grid
  deriving DecidableEq

inductive Flag where
  | verbose | cell | range | standardPrecedence | maxDepth
  deriving DecidableEq

namespace Flag

def takesValue : Flag → Bool
  | cell | range | maxDepth => true
  | verbose | standardPrecedence => false

/-- The option with the given long name. -/
def ofName? (verb : Verb) (name : String) : Option Flag :=
  match verb, name with
  | _, "verbose" => some verbose
  | _, "cell" => some cell
  | .grid, "range" => some range
  | .eval, "standard-precedence" => some standardPrecedence
  | .eval, "max-depth" => some maxDepth
  | _, _ => none

def ofLetter? (verb : Verb) (letter : Char) : Option Flag :=
  match verb, letter with
  | _, 'v' => some verbose
  | _, 'c' => some cell
  | .grid, 'r' => some range
  | _, _ => none

end Flag

/-- What was read of the arguments of a command. -/
structure Reading where
  cells : List (String × String)
  others : List String
  range : Option String
  standard : Bool
  maxDepth : Option Nat
  /-- An option whose value is the next argument. -/
  pending : Option Flag

namespace Reading

def start : Reading := ⟨[], [], none, false, none, none⟩

/-- A text split at its first equals sign. -/
def splitAtEquals? (text : List Char) : Option (List Char × List Char) :=
  match text.span (· != '=') with
  | (before, _ :: after) => some (before, after)
  | (_, []) => none

/-- An unsigned number that fits a machine word. -/
def readNumber? (text : List Char) : Option Nat :=
  let ds := match text with
    | '+' :: ds => ds
    | ds => ds
  let n := Text.natOfDigits ds
  if !ds.isEmpty && ds.all Text.isDigit && n < UInt64.size then some n else none

/-- Takes the value of an option. Only cells may be given more than once. -/
def setValue? (r : Reading) (value : List Char) : Flag → Option Reading
  | .cell => (splitAtEquals? value).map fun (address, text) =>
    { r with cells := r.cells ++ [(String.ofList (Text.trim address), String.ofList text)] }
  | .range => if r.range.isSome then none else some { r with range := some (String.ofList value) }
  | .maxDepth =>
    if r.maxDepth.isSome then none
    else (readNumber? value).map fun n => { r with maxDepth := some n }
  | .verbose | .standardPrecedence => none

def set? (r : Reading) : Flag → Option Reading
  | .verbose => some r
  | .standardPrecedence => if r.standard then none else some { r with standard := true }
  | .cell | .range | .maxDepth => none

/-- Takes an option in the long form, with its value after an equals sign or in
the next argument. -/
def long? (verb : Verb) (r : Reading) (text : List Char) : Option Reading :=
  match splitAtEquals? text with
  | some (name, value) => do
    r.setValue? value (← Flag.ofName? verb (String.ofList name))
  | none => do
    let flag ← Flag.ofName? verb (String.ofList text)
    if flag.takesValue then some { r with pending := some flag } else r.set? flag

/-- Takes options in the short form. The first one with a value has the rest of
the argument as its value, an equals sign aside, or the next argument. -/
def short? (verb : Verb) (r : Reading) : List Char → Option Reading
  | [] => some r
  | letter :: rest => do
    let flag ← Flag.ofLetter? verb letter
    if flag.takesValue then
      match rest with
      | [] => some { r with pending := some flag }
      | '=' :: value => r.setValue? value flag
      | value => r.setValue? value flag
    else short? verb (← r.set? flag) rest

/-- Reads arguments. Options end at two hyphens, and an argument that looks like
an option is no value of one. -/
def readAll? (verb : Verb) (r : Reading) : List String → Option Reading
  | [] => if r.pending.isSome then none else some r
  | arg :: rest =>
    match arg.toList, r.pending with
    | ['-', '-'], none => some { r with others := r.others ++ rest }
    | '-' :: '-' :: _, some _ => none
    | '-' :: '-' :: text, none => do readAll? verb (← long? verb r text) rest
    | '-' :: _ :: _, some _ => none
    | '-' :: c :: cs, none => do readAll? verb (← short? verb r (c :: cs)) rest
    | text, some flag => do readAll? verb (← { r with pending := none }.setValue? text flag) rest
    | _, none => readAll? verb { r with others := r.others ++ [arg] } rest

/-- The command that the arguments amount to. -/
def command? (r : Reading) : Verb → Option Command
  | .eval =>
    match r.others with
    | [formula] =>
      some (.eval formula r.cells (if r.standard then .standard else .leftToRight)
        (r.maxDepth.getD Formula.Options.default.maxDepth))
    | _ => none
  | .grid => if r.others.isEmpty then some (.grid r.cells r.range) else none

end Reading

/-- Whether the argument asks for more messages and nothing else. -/
def isVerbosity (arg : String) : Bool :=
  arg == "--verbose" ||
    match arg.toList with
    | '-' :: letters => !letters.isEmpty && letters.all (· == 'v')
    | _ => false

/-- The command that a command line asks for, if it is understood. -/
def parse? : List String → Option Command
  | [] => none
  | arg :: rest =>
    if arg = "eval" then do (← Reading.readAll? .eval .start rest).command? .eval
    else if arg = "grid" then do (← Reading.readAll? .grid .start rest).command? .grid
    else if isVerbosity arg then parse? rest
    else none

end Spreadsheet.CommandLine

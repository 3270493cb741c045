import Spreadsheet.Proofs.Formula.Parts

/-
  What an expression asks for, one request after another.

  The functions of a `Scope` call for values of parts and of cells, and what a
  call does to the state of the evaluation does not show in them. A `Plan` lays
  the same steps open: it is a tree that ends in a value or in a fault, and at
  every other node asks for one value, on which its branches depend. Whoever
  carries out a plan answers its requests in turn, in a state of his own.

  Carried out in a scope, the plan of a shape gives what the scope gives
  (`Plan.run_ofShape`), and so do the plans of an argument and of a number.
-/

namespace Spreadsheet.Formula

/-- A computation with its requests laid open. -/
inductive Plan (α : Type) where
  | done (a : α)
  | fail (fault : Fault)
  /-- Asks for the value of a part of the expression. -/
  | part (expr : List Char) (next : Value → Plan α)
  /-- Asks for the value of the cell at an address. -/
  | cell (address : String) (next : Value → Plan α)
  /-- Asks the clock. -/
  | time (next : Moment → Plan α)

namespace Plan

variable {α β : Type}

def bind : Plan α → (α → Plan β) → Plan β
  | done a, f => f a
  | fail fault, _ => fail fault
  | part expr next, f => part expr fun v => (next v).bind f
  | cell address next, f => cell address fun v => (next v).bind f
  | time next, f => time fun t => (next t).bind f

instance : Monad Plan where
  pure := done
  bind := bind

theorem bind_done (p : Plan α) : p.bind done = p := by
  induction p with
  | done a => rfl
  | fail fault => rfl
  | part expr next ih => exact congrArg (part expr) (funext ih)
  | cell address next ih => exact congrArg (cell address) (funext ih)
  | time next ih => exact congrArg time (funext ih)

theorem bind_bind {γ : Type} (p : Plan α) (f : α → Plan β) (g : β → Plan γ) :
    (p.bind f).bind g = p.bind fun a => (f a).bind g := by
  induction p with
  | done a => rfl
  | fail fault => rfl
  | part expr next ih => exact congrArg (part expr) (funext ih)
  | cell address next ih => exact congrArg (cell address) (funext ih)
  | time next ih => exact congrArg time (funext ih)

instance : LawfulMonad Plan := LawfulMonad.mk' Plan bind_done (fun _ _ => rfl) bind_bind

/-! ## The plan of a shape -/

def ask (expr : List Char) : Plan Value := part expr done

def look (address : String) : Plan Value := cell address done

def now : Plan Moment := time done

def number (expr : List Char) : Plan Float := do return (← ask expr).toNumber

section

variable (ctx : Context)

def rangeCells (text : List Char) (range : Range) : Plan (List Value) :=
  let count := range.countIn ctx.bounds
  if count > ctx.options.maxRangeCells then
    fail (.rangeTooLarge (String.ofList text) count ctx.options.maxRangeCells)
  else (range.cellsIn ctx.bounds).mapM fun a => look a.label

def expand (argument : List Char) : Plan (List Value) :=
  let text := Text.trim argument
  if isRangeForm text then
    match Range.ofText text with
    | .ok range => rangeCells ctx text range
    | .error cause => fail (.badReference cause)
  else do return [← ask text]

def expandAll (arguments : List (List Char)) : Plan (List Value) := do
  return (← arguments.mapM (expand ctx)).flatten

/-- The plan of a function of values. -/
def aggregate (f : List Value → Float) (arguments : List (List Char)) : Plan Value := do
  return .number (f (← expandAll ctx arguments))

def date (year month day : List Char) : Plan Value := do
  let some y := datePart? (← ask year) | return .text ""
  let some m := datePart? (← ask month) | return .text ""
  let some d := datePart? (← ask day) | return .text ""
  return .text (dateText y m d)

def apply : Builtin → List (List Char) → Plan Value
  | .sum, args => aggregate ctx sumOf args
  | .average, args => aggregate ctx averageOf args
  | .count, args => aggregate ctx countOf args
  | .max, args => aggregate ctx maxOf args
  | .min, args => aggregate ctx minOf args
  | .round, [x] => do return .number (rounded (← number x) 0)
  | .round, [x, places] => do
    let x ← number x
    return .number (rounded x (placesOf (← number places)))
  | .abs, [x] => do return .number (← number x).abs
  | .sqrt, [x] => do return .number (← number x).sqrt
  | .power, [x, y] => do
    let x ← number x
    return .number (x.pow (← number y))
  | .choose, [test, yes] => do
    if (← ask test).isTrue then ask yes else return .text ""
  | .choose, [test, yes, no] => do
    if (← ask test).isTrue then ask yes else ask no
  | .concatenate, args => do return .text (concatenationOf (← expandAll ctx args))
  | .now, [] => do return .text (String.ofList (← now).text)
  | .date, [year, month, day] => date year month day
  | b, args => fail (.wrongArity b.signature.name b.signature.arity args.length)

def call (name arguments : List Char) : Plan Value :=
  match Builtin.ofName? name with
  | none => fail (.unknownFunction (String.ofList name))
  | some b =>
    let args := Formula.arguments arguments
    match b.signature.checkArity args.length with
    | .error fault => fail fault
    | .ok () => apply ctx b args

def ofShape : Shape → Plan Value
  | .blank => return .empty
  | .literal text => return .text (String.ofList text)
  | .call name arguments => call ctx name arguments
  | .group inside => ask inside
  | .comparison left op right => do
    let x ← ask left
    let y ← ask right
    return .boolean (op.ofValues x y)
  | .chain c => do
    let x ← number c.first
    let links ← c.links.mapM fun (op, operand) => do return (op, ← number operand)
    match ctx.options.precedence.fold x links with
    | .ok z => return .number z
    | .error fault => fail fault
  | .malformed fault => fail fault
  | .range text => fail (.rangeAsValue (String.ofList text))
  | .reference address => look (String.ofList address)
  | .truth b => return .boolean b
  | .negated operand => do return .number (-(← number operand))
  | .affirmed operand => do return .number (← number operand)
  | .number x => return .number x

end

/-! ## Plans carried out in a scope -/

/-- A plan carried out in a scope. -/
def run (s : Scope) : Plan α → Run α
  | done a => Pure.pure a
  | fail fault => throw fault
  | part expr next => s.expr expr >>= fun v => (next v).run s
  | cell address next => s.cell address >>= fun v => (next v).run s
  | time next => s.ctx.now >>= fun t => (next t).run s

section

variable (s : Scope)

@[simp]
theorem run_pure (a : α) : (Pure.pure a : Plan α).run s = Pure.pure a := rfl

@[simp]
theorem run_fail (fault : Fault) : (fail fault : Plan α).run s = throw fault := rfl

@[simp]
theorem run_bind (p : Plan α) (f : α → Plan β) : (p >>= f).run s = p.run s >>= fun a => (f a).run s := by
  show (p.bind f).run s = _
  induction p with
  | done a => exact (pure_bind a fun a => (f a).run s).symm
  | fail fault => rfl
  | part expr next ih => simp only [bind, run, bind_assoc, ih]
  | cell address next ih => simp only [bind, run, bind_assoc, ih]
  | time next ih => simp only [bind, run, bind_assoc, ih]

@[simp]
theorem run_map (f : α → β) (p : Plan α) : (f <$> p).run s = f <$> p.run s := by
  simp only [map_eq_pure_bind, run_bind, run_pure]

@[simp]
theorem run_ask (expr : List Char) : (ask expr).run s = s.expr expr := bind_pure _

@[simp]
theorem run_look (address : String) : (look address).run s = s.cell address := bind_pure _

@[simp]
theorem run_now : now.run s = s.ctx.now := bind_pure _

@[simp]
theorem run_mapM (f : α → Plan β) (xs : List α) : (xs.mapM f).run s = xs.mapM fun a => (f a).run s := by
  induction xs with
  | nil => rfl
  | cons a xs ih => simp only [List.mapM_cons, run_bind, run_pure, ih]

@[simp]
theorem run_number (expr : List Char) : (number expr).run s = s.number expr := by
  simp [number, Scope.number]

theorem run_rangeCells (text : List Char) (range : Range) :
    (rangeCells s.ctx text range).run s = s.rangeCells text range := by
  rw [Scope.rangeCells_eq, rangeCells]
  split
  · rfl
  · simp only [run_mapM, run_look]

@[simp]
theorem run_expand (argument : List Char) : (expand s.ctx argument).run s = s.expand argument := by
  unfold expand Scope.expand
  dsimp only
  split
  · cases Range.ofText (Text.trim argument) with
    | ok range => exact run_rangeCells s _ range
    | error cause => rfl
  · simp

@[simp]
theorem run_expandAll (arguments : List (List Char)) :
    (expandAll s.ctx arguments).run s = s.expandAll arguments := by
  simp [expandAll, Scope.expandAll]

@[simp]
theorem run_aggregate (f : List Value → Float) (arguments : List (List Char)) :
    (aggregate s.ctx f arguments).run s = s.aggregate f arguments := by
  simp [aggregate, Scope.aggregate]

theorem run_date (year month day : List Char) : (date year month day).run s = s.date year month day := by
  unfold date Scope.date
  rw [run_bind, run_ask]
  refine bind_congr (m := Run) fun y => ?_
  cases datePart? y with
  | none => rfl
  | some y =>
    dsimp only
    rw [run_bind, run_ask]
    refine bind_congr (m := Run) fun m => ?_
    cases datePart? m with
    | none => rfl
    | some m =>
      dsimp only
      rw [run_bind, run_ask]
      refine bind_congr (m := Run) fun d => ?_
      cases datePart? d <;> rfl

theorem run_apply (b : Builtin) (args : List (List Char)) : (apply s.ctx b args).run s = s.apply b args := by
  unfold apply Scope.apply
  split
  -- in the order of the definition: first those that combine numbers
  · exact run_aggregate s _ _
  · exact run_aggregate s _ _
  · exact run_aggregate s _ _
  · exact run_aggregate s _ _
  · exact run_aggregate s _ _
  · simp
  · simp
  · simp
  · simp
  · simp
  -- the test is asked for alike, so both choose the same branch
  · simp only [run_bind, run_ask]
    refine bind_congr (m := Run) fun v => ?_
    split
    · exact run_ask s _
    · rfl
  · simp only [run_bind, run_ask]
    refine bind_congr (m := Run) fun v => ?_
    split
    · exact run_ask s _
    · exact run_ask s _
  · simp
  · simp
  · exact run_date s _ _ _
  · simp

theorem run_call (name arguments : List Char) : (call s.ctx name arguments).run s = s.call name arguments := by
  unfold call Scope.call
  cases Builtin.ofName? name with
  | none => rfl
  | some b =>
    dsimp only
    cases b.signature.checkArity (Formula.arguments arguments).length with
    | error fault => rfl
    | ok _ => exact run_apply s b _

/-- The plan of a shape, carried out in a scope, gives the value of the shape. -/
theorem run_ofShape (sh : Shape) : (ofShape s.ctx sh).run s = s.shape sh := by
  cases sh with
  | call name arguments => exact run_call s name arguments
  | comparison left op right => simp [ofShape, Scope.shape]
  | chain c =>
    simp only [ofShape, Scope.shape, run_bind, run_number, run_mapM, run_pure]
    refine bind_congr (m := Run) fun x => ?_
    refine bind_congr (m := Run) fun links => ?_
    cases s.ctx.options.precedence.fold x links <;> rfl
  | group inside => exact run_ask s inside
  | reference address => exact run_look s _
  | negated operand => simp [ofShape, Scope.shape]
  | affirmed operand => simp [ofShape, Scope.shape]
  | _ => rfl

end

end Plan

end Spreadsheet.Formula

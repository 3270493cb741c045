import Mathlib.Logic.Relation
import Spreadsheet.Proofs.Formula.Cell
import Spreadsheet.Proofs.Formula.Mentions

/-
  Formulas under two clocks.

  A formula asks for the time by a call in its own text or in the formula of a
  cell that it refers to, and so on from cell to cell; `Context.Reaches` follows
  the references. An expression is `Timeless` if neither its text nor any formula
  it reaches calls the clock. It then never asks, so it makes no difference what
  a clock reads, or how often it has been asked before.

    1. `levels_timeless`, `cellFormula_timeless` : a timeless expression has the
       same value under any two clocks, on every cache and with any room.
    2. `evaluate_timeless` : so has a formula that is not volatile, if no
       formula it can be given is.
-/

namespace Spreadsheet.Formula

/-! ## References -/

variable {ctx : Context}

/-- Whether a formula refers to a cell that holds the other formula. -/
def Context.Refers (ctx : Context) (formula other : List Char) : Prop :=
  ∃ address, Mentions (exprOf formula) address ∧ ctx.formulaAt? address = some other

/-- Whether a formula is the other one or refers to it, directly or through
the formulas of other cells. -/
def Context.Reaches (ctx : Context) : List Char → List Char → Prop := Relation.ReflTransGen ctx.Refers

theorem Context.Reaches.eq_of_not_mentions {formula other : List Char} (h : ctx.Reaches formula other)
    (hnone : ∀ address, ¬ Mentions (exprOf formula) address) : other = formula := by
  rcases Relation.ReflTransGen.cases_head h with rfl | ⟨next, ⟨address, hmentions, -⟩, -⟩
  · rfl
  · exact absurd hmentions (hnone address)

/-- Whether neither an expression nor a formula it reaches calls the clock. -/
structure Timeless (ctx : Context) (e : List Char) : Prop where
  quiet : Quiet e
  reached : ∀ address formula other, Mentions e address → ctx.formulaAt? address = some formula →
    ctx.Reaches formula other → Quiet (exprOf other)

namespace Timeless

theorem of_reaches {formula : List Char} (h : ∀ other, ctx.Reaches formula other → Quiet (exprOf other)) :
    Timeless ctx (exprOf formula) where
  quiet := h formula .refl
  reached address _ other hmentions hnext hother := h other (.head ⟨address, hmentions, hnext⟩ hother)

/-- A formula is timeless if it reaches no volatile one. -/
theorem of_not_volatile {formula : List Char}
    (h : ∀ other, ctx.Reaches formula other → isVolatile (String.ofList other) = false) :
    Timeless ctx (exprOf formula) := by
  apply of_reaches
  intro other hother
  have hquiet := quiet_exprOf (h other hother)
  rwa [String.toList_ofList] at hquiet

theorem of_quiet
    (hcells : ∀ address formula, ctx.formulaAt? address = some formula → Quiet (exprOf formula))
    {e : List Char} (he : Quiet e) : Timeless ctx e where
  quiet := he
  reached address formula other _ hformula hother := by
    -- the last formula on the way is one that a cell holds
    rcases Relation.ReflTransGen.cases_tail hother with rfl | ⟨before, -, cell, -, hcell⟩
    · exact hcells address other hformula
    · exact hcells cell other hcell

variable {e : List Char} (h : Timeless ctx e)

include h

theorem formula {address : String} {formula : List Char} (hmentions : Mentions e address)
    (hformula : ctx.formulaAt? address = some formula) : Timeless ctx (exprOf formula) :=
  of_reaches fun other hother => h.reached address formula other hmentions hformula hother

end Timeless

/-! ## Evaluation -/

def Context.at (ctx : Context) (clock : Clock) : Context := { ctx with clock }

/-- A timeless expression has the same value under any two clocks if the timeless
formulas of cells do. -/
theorem levels_timeless {f g : String → List Char → Run Value} (clock : Clock)
    (hcell : ∀ a formula, ctx.formulaAt? (String.ofList a) = some formula →
      Timeless ctx (exprOf formula) → f (String.ofList a) formula = g (String.ofList a) formula)
    (n : Nat) {e : List Char} (he : Timeless ctx e) :
    levels ctx f n e = levels (ctx.at clock) g n e := by
  have hsequential : Sequential fun _ x y => x = y := by
    refine ⟨fun _ => rfl, fun _ => rfl, ?_⟩
    intro α β x y f g hxy hfg
    rw [hxy, funext hfg]
  have hprecedence : ctx.options.precedence = (ctx.at clock).options.precedence := rfl
  have hbounds : ctx.bounds = (ctx.at clock).bounds := rfl
  have hlimit : ctx.options.maxRangeCells = (ctx.at clock).options.maxRangeCells := rfl
  refine levels_alike_of_mentions hsequential hprecedence hbounds hlimit (.inl he.quiet)
    (fun x y a _ hmentions => ?_) n
  funext m
  rw [Scope.cell_apply, Scope.cell_apply]
  have hsame : (ctx.at clock).formulaAt? (String.ofList a) = ctx.formulaAt? (String.ofList a) := rfl
  cases m.cache[String.ofList a]? with
  | some v => rfl
  | none =>
    simp only [hsame]
    cases hformula : ctx.formulaAt? (String.ofList a) with
    | none => rfl
    | some formula => exact congrFun (hcell a formula hformula (he.formula hmentions hformula)) m

/-- The formula of a cell has the same value under any two clocks if it is
timeless. -/
theorem cellFormula_timeless (clock : Clock) (n : Nat) (path : List String) (address : String)
    {formula : List Char} (h : Timeless ctx (exprOf formula)) :
    cellFormula ctx n path address formula = cellFormula (ctx.at clock) n path address formula := by
  induction n generalizing path address formula with
  | zero => rfl
  | succ n ih =>
    have hlevels := levels_timeless (f := cellFormula ctx n (path ++ [cacheKey address]))
      (g := cellFormula (ctx.at clock) n (path ++ [cacheKey address])) clock
      (fun a formula _ ha => ih _ _ ha) levelLimit h
    simp only [cellFormula, hlevels]

/-- A visit of a cell with a timeless formula is the same under any two clocks, in
every state of the evaluator. -/
theorem evalCell_timeless (clock : Clock) (ev : Evaluator) (address : String) {formula : String}
    (h : Timeless ctx (exprOf formula.toList)) :
    ev.evalCell ctx address formula = ev.evalCell (ctx.at clock) address formula := by
  have hcell : ev.formulaOf ctx address formula.toList = ev.formulaOf (ctx.at clock) address formula.toList :=
    cellFormula_timeless clock _ ev.path address h
  unfold Evaluator.evalCell
  rw [hcell]

theorem evalFormula_timeless (clock : Clock) (ev : Evaluator) {formula : String}
    (h : Timeless ctx (exprOf formula.toList)) :
    ev.evalFormula ctx formula = ev.evalFormula (ctx.at clock) formula := by
  have hexpr : ev.exprRun ctx (exprOf formula.toList) =
      ev.exprRun (ctx.at clock) (exprOf formula.toList) := by
    apply levels_timeless clock _ _ h
    intro a formula _ ha
    exact cellFormula_timeless clock _ ev.path _ ha
  unfold Evaluator.evalFormula
  rw [hexpr]

theorem exprOf_trim (formula : List Char) : exprOf (Text.trim formula) = exprOf formula := by
  unfold exprOf
  rw [Text.trim_trim]

/-- The test for volatile formulas misses no use of the clock. A formula that is
not volatile has the same value or fault under any two clocks, whatever they read
and however they move on, if none of the formulas in cells is volatile: these are
the texts with the formula mark in front once they are trimmed. -/
theorem evaluate_timeless {formula : String} (hformula : isVolatile formula = false)
    (hcells : ∀ address text, ctx.resolve address = some text →
      (Text.trim text.toList).head? = some formulaMark → isVolatile text = false) (clock clock' : Clock) :
    evaluate (ctx.at clock) formula = evaluate (ctx.at clock') formula := by
  have hquiet : ∀ address formula, ctx.formulaAt? address = some formula → Quiet (exprOf formula) := by
    intro address formula h
    obtain ⟨text, htext, hmark, rfl⟩ := Context.exists_of_formulaAt? h
    rw [exprOf_trim]
    exact quiet_exprOf (hcells address text htext hmark)
  have hsame : ∀ clock, evaluate (ctx.at clock) formula = evaluate ctx formula := by
    intro clock
    have hstate := evalFormula_timeless clock Evaluator.fresh (.of_quiet hquiet (quiet_exprOf hformula))
    exact congrArg Prod.fst hstate.symm
  calc evaluate (ctx.at clock) formula
      = evaluate ctx formula := hsame clock
    _ = evaluate (ctx.at clock') formula := (hsame clock').symm

def noon : Moment := { Moment.epoch with hour := 12 }

/-- The clock that moves on by an hour when it is asked. -/
def hourly : Clock := ⟨fun n => { Moment.epoch with hour := n % 24 }⟩

/-- Cells of which one names the clock in quotes. -/
def quoting : Context where
  resolve address :=
    if address = "A1" then some "=IF(B1>1,\"NOW()\"\"\",NOW)"
    else if address = "B1" then some " 2 " else none
  bounds := none
  clock := Moment.epoch
  options := .default

theorem evaluate_timeless_quoting :
    evaluate (quoting.at noon) "=CONCATENATE(A1,\"now(\")" =
      evaluate (quoting.at hourly) "=CONCATENATE(A1,\"now(\")" := by
  have hcells : ∀ address text, quoting.resolve address = some text →
      (Text.trim text.toList).head? = some formulaMark → isVolatile text = false := by
    intro address text htext hmark
    simp only [quoting] at htext
    split at htext
    · cases htext
      decide
    · split at htext
      · cases htext
        revert hmark
        decide
      · cases htext
  exact evaluate_timeless (by decide) hcells noon hourly

end Spreadsheet.Formula

import Spreadsheet.Proofs.Formula.Clock
import Spreadsheet.Proofs.Sheet.SharedRecalculation

/-
  Recalculating one cell after the sheet.

  A recalculation of one cell starts from an empty cache, the one of the sheet
  from what the cells before left. With no volatile formula and every formula in
  the grid, both come to the same result, unless the cell by itself nests too
  deep. The limit is the one thing that shows the difference: a long chain of
  references is evaluated from its start in a recalculation of the sheet, and
  from its end in a recalculation of one cell.
-/

namespace Spreadsheet.Sheet

open Formula (Context Evaluator Options Quiet Timeless evalCell_timeless evaluateAt exprOf isVolatile
  quiet_exprOf)

variable {s : Sheet}

/-! ## Formulas that do not ask for the time -/

section

variable (hs : s.Indexed)
  (hvolatile : ∀ (a : Address) text, s.formulas[a]? = some text → isVolatile text = false)

include hs hvolatile

theorem timeless_of_formulaAt? {options : Options} {clock : Clock} {address : String} {formula : List Char}
    (hformula : (s.context options clock).formulaAt? address = some formula) :
    Timeless (s.context options clock) (exprOf formula) := by
  -- the formulas it can see are those of the index, so they are quiet as well
  have hquiet : ∀ address formula, (s.context options clock).formulaAt? address = some formula →
      Quiet (exprOf formula) := by
    intro address formula hformula
    obtain ⟨b, text, -, -, htext, rfl⟩ := hs.exists_of_formulaAt? hformula
    exact quiet_exprOf (hvolatile b text htext)
  exact .of_quiet hquiet (hquiet address formula hformula)

theorem evaluateAt_timeless (options : Options) (clock clock' : Clock) {a : Address} {text : String}
    (hformula : (s.context options clock).formulaAt? a.label = some text.toList) :
    evaluateAt (s.context options clock) a.label text = evaluateAt (s.context options clock') a.label text :=
  congrArg Prod.fst
    (evalCell_timeless clock' Evaluator.fresh a.label (timeless_of_formulaAt? hs hvolatile hformula))

end

/-! ## One cell and the sheet -/

theorem Indexed.recalculateCell_setResults (hs : s.Indexed) (rs : List (Address × CellValue))
    (clock : Clock) {a : Address} {text : String} (htext : s.formulas[a]? = some text) :
    (s.setResults rs).recalculateCell clock a =
      (((s.setResults rs).setResult a
          (resultValue (evaluateAt (s.context Options.default clock) a.label text))).sheet,
        some (resultValue (evaluateAt (s.context Options.default clock) a.label text))) := by
  have hformulas : (s.setResults rs).formulas[a]? = some text := by
    rw [(frame_setResults s rs).formulas, htext]
  unfold Sheet.recalculateCell
  rw [hformulas, hs.context_setResults]

/-- Recalculating one cell agrees with recalculating the sheet. With no volatile
formula and every formula in the grid, after a recalculation by any clock, one
of a single formula cell by any other clock has the result stored there and
leaves the sheet as it is, unless the cell by itself nests too deep; then it has
that fault. -/
theorem recalculateCell_recalculate (hs : s.Reachable)
    (hin : ∀ (a : Address) text, s.formulas[a]? = some text → s.inBounds a = true)
    (hvolatile : ∀ (a : Address) text, s.formulas[a]? = some text → isVolatile text = false)
    (clock clock' : Clock) {a : Address} {text : String} (htext : s.formulas[a]? = some text) :
    (∃ cell value, (s.recalculate .default clock).1.cells[a]? = some cell ∧ cell.stored = some value ∧
      (s.recalculate .default clock).1.recalculateCell clock' a =
        ((s.recalculate .default clock).1, some value)) ∨
    ∃ fault sheet, fault.nestsTooDeep = true ∧
      evaluateAt (s.context Options.default clock') a.label text = .error fault ∧
      (s.recalculate .default clock).1.recalculateCell clock' a = (sheet, some (.error fault.message)) := by
  have hindexed := hs.indexed
  obtain ⟨value, hvalue⟩ := exists_mem_results .default htext rfl clock
  obtain ⟨cell, hformula, hstored⟩ := hindexed.exists_stored hvalue
  have hagrees := hindexed.results_agree hin (Formula.steady_timeless _)
    (fun _ hseen => timeless_of_formulaAt? hindexed hvolatile hseen) htext hvalue
  have hseen := hindexed.formulaAt?_context (Address.ofName_name a) (hin a text htext) htext
    Options.default clock
  rw [show RecalculationOptions.default.evaluation = Options.default from rfl,
    evaluateAt_timeless hindexed hvolatile Options.default clock clock' hseen] at hagrees
  have hone := hindexed.recalculateCell_setResults (s.results .default clock) clock' htext
  -- by itself the cell comes to the stored result, which is then stored again
  rcases hagrees with rfl | ⟨fault, hfault, hnest⟩
  · rw [setResult_of_stored (s := s.setResults (s.results .default clock)) hstored hformula] at hone
    exact Or.inl ⟨_, _, hstored, rfl, hone⟩
  · rw [hfault] at hone
    exact Or.inr ⟨fault, _, hnest, hfault, hone⟩

theorem formulas_pair : pair.formulas.toList = [(⟨0, 0⟩, "=B1"), (⟨0, 1⟩, "=1")] := by
  decide

theorem recalculateCell_recalculate_pair :
    (∃ cell value, (pair.recalculate .default .epoch).1.cells[(⟨0, 0⟩ : Address)]? = some cell ∧
      cell.stored = some value ∧ (pair.recalculate .default .epoch).1.recalculateCell .epoch ⟨0, 0⟩ =
        ((pair.recalculate .default .epoch).1, some value)) ∨
    ∃ fault sheet, fault.nestsTooDeep = true ∧
      evaluateAt (pair.context Options.default .epoch) (⟨0, 0⟩ : Address).label "=B1" = .error fault ∧
      (pair.recalculate .default .epoch).1.recalculateCell .epoch ⟨0, 0⟩ =
        (sheet, some (.error fault.message)) := by
  have hformulas : ∀ p ∈ pair.formulas.toList, pair.inBounds p.1 = true ∧ isVolatile p.2 = false := by
    rw [formulas_pair]
    decide
  have hformula : ∀ (a : Address) text, pair.formulas[a]? = some text →
      pair.inBounds a = true ∧ isVolatile text = false := fun a text htext =>
    hformulas (a, text) (Std.ExtTreeMap.mem_toList_iff_getElem?_eq_some.2 htext)
  exact recalculateCell_recalculate reachable_pair (fun a text htext => (hformula a text htext).1)
    (fun a text htext => (hformula a text htext).2) .epoch .epoch (by decide)

end Spreadsheet.Sheet

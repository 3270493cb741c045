import Spreadsheet.Proofs.Formula.Clock
import Spreadsheet.Proofs.Formula.Reference
import Spreadsheet.Proofs.Sheet.SharedRecalculation

/-
  Recalculation without the volatile formulas.

  A recalculation may pass over the formulas that call the clock in their own
  text. The other ones are evaluated as ever: a reference to a cell that is
  passed over evaluates the formula in it, and not the result stored there, so
  what a formula comes to still depends on the clock if it reaches a volatile
  one (`recalculate_mirror`). Nothing else does (`recalculate_skipping`), also if
  the clock moves on while the volatile ones are evaluated: these leave in the
  cache what other formulas find there, but only volatile ones or formulas that
  reach them look.
-/

namespace Spreadsheet

open Formula (Constant Context Evaluator Mentions Options Shape Timeless Value evalCell_timeless evaluateAt
  exprOf hourly isVolatile noon referenceTo)

/-- The options of a recalculation that passes over volatile formulas. -/
def RecalculationOptions.skipping : RecalculationOptions := ⟨Options.default, false⟩

namespace Sheet

variable {s : Sheet}

/-- Whether a formula is volatile or refers to a volatile one, directly or
through the formulas of other cells. -/
def ReachesVolatile (s : Sheet) (text : String) : Prop :=
  ∃ other, (s.context Options.default .epoch).Reaches text.toList other ∧
    isVolatile (String.ofList other) = true

/-! ## Formulas that reach no volatile one -/

theorem timeless_of_not_reachesVolatile {text : String} (h : ¬ s.ReachesVolatile text) (options : Options)
    (clock : Clock) : Timeless (s.context options clock) (exprOf text.toList) := by
  apply Timeless.of_not_volatile
  intro other hother
  rw [← Bool.not_eq_true]
  intro hvolatile
  exact h ⟨other, hother, hvolatile⟩

theorem evaluateCells_timeless {ctx : Context} (clock : Clock) {ev : Evaluator}
    {cells : List (Address × String)} (h : ∀ cell ∈ cells, Timeless ctx (exprOf cell.2.toList)) :
    evaluateCells ctx ev cells = evaluateCells (ctx.at clock) ev cells := by
  induction cells generalizing ev with
  | nil => rfl
  | cons cell rest ih =>
    have hvisit := evalCell_timeless clock ev cell.1.label (h cell List.mem_cons_self)
    have hrest : ∀ ev : Evaluator, evaluateCells ctx ev rest = evaluateCells (ctx.at clock) ev rest :=
      fun _ => ih fun other hother => h other (List.mem_cons_of_mem cell hother)
    rw [evaluateCells_cons, evaluateCells_cons, hvisit, hrest]

variable {options : RecalculationOptions}

/-- If no formula that a recalculation covers reaches a volatile one, it has the
same results under any two clocks. -/
theorem results_timeless
    (h : ∀ (a : Address) text, s.formulas[a]? = some text → isSkipped options text = false →
      ¬ s.ReachesVolatile text) (clock clock' : Clock) :
    s.results options clock = s.results options clock' := by
  apply evaluateCells_timeless clock'
  intro cell hcell
  obtain ⟨htext, hcovered⟩ := List.mem_filter.1 hcell
  have htext := Std.ExtTreeMap.mem_toList_iff_getElem?_eq_some.1 htext
  exact timeless_of_not_reachesVolatile (h cell.1 cell.2 htext (by simpa using hcovered)) _ clock

/-- A cell whose formula reaches no volatile one has the same result under any two
clocks whatever the others reach, unless by itself it nests too deep. -/
theorem Indexed.getElem?_recalculate_timeless (hs : s.Indexed)
    (hin : ∀ (a : Address) text, s.formulas[a]? = some text → s.inBounds a = true) {a : Address}
    {text : String} (htext : s.formulas[a]? = some text) (hreaches : ¬ s.ReachesVolatile text)
    (clock clock' : Clock) :
    (s.recalculate options clock).1.cells[a]? = (s.recalculate options clock').1.cells[a]? ∨
      ∃ fault, evaluateAt (s.context options.evaluation clock) a.label text = .error fault ∧
        fault.nestsTooDeep = true := by
  cases hskipped : isSkipped options text with
  | true =>
    have hall : ∀ other, s.formulas[a]? = some other → isSkipped options other = true := by
      intro other hother
      rwa [← Option.some.inj (htext.symm.trans hother)]
    rw [getElem?_recalculate_of_isSkipped hall, getElem?_recalculate_of_isSkipped hall]
    exact .inl rfl
  | false =>
    have halone : evaluateAt (s.context options.evaluation clock) a.label text =
        evaluateAt (s.context options.evaluation clock') a.label text :=
      congrArg Prod.fst (evalCell_timeless clock' Evaluator.fresh a.label
        (timeless_of_not_reachesVolatile hreaches options.evaluation clock))
    obtain ⟨cell, hcell, hformula⟩ := hs.exists_cell htext
    have hstored : ∀ clock,
        (s.recalculate options clock).1.cells[a]? =
            some (cell.store (resultValue (evaluateAt (s.context options.evaluation clock) a.label text))) ∨
          ∃ fault, evaluateAt (s.context options.evaluation clock) a.label text = .error fault ∧
            fault.nestsTooDeep = true := by
      intro clock
      refine hs.getElem?_recalculate hin (Formula.steady_timeless _) (fun formula hseen => ?_) hcell hformula
        hskipped
      have htext := hs.formulaAt?_context (Address.ofName_name a) (hin a text htext) htext options.evaluation
        clock
      rw [show formula = text.toList from Option.some.inj (hseen.symm.trans htext)]
      exact timeless_of_not_reachesVolatile hreaches _ _
    -- under both clocks the result is the one of the cell by itself
    rcases hstored clock with hresult | hfault
    · rcases hstored clock' with hresult' | hfault
      · left
        rw [hresult, hresult', halone]
      · rw [← halone] at hfault
        exact .inr hfault
    · exact .inr hfault

/-- A recalculation that passes over volatile formulas depends on the clock only
through formulas that reach one. Under any two clocks, whatever they read and
however they move on, it counts the same formulas and leaves the same in every
cell that is not calculated. A formula that reaches no volatile one has the same
result, unless by itself its cells nest too deep. If none that is calculated
reaches one, the sheets and the statistics are the same. -/
theorem recalculate_skipping (hoptions : options.includeVolatile = false) (clock clock' : Clock) :
    ((s.recalculate options clock).2.formulas = (s.recalculate options clock').2.formulas ∧
      (s.recalculate options clock).2.calculated = (s.recalculate options clock').2.calculated ∧
      (s.recalculate options clock).2.volatile = (s.recalculate options clock').2.volatile) ∧
    (∀ a : Address, (∀ text, s.formulas[a]? = some text → isVolatile text = true) →
      (s.recalculate options clock).1.cells[a]? = (s.recalculate options clock').1.cells[a]?) ∧
    (s.Reachable → (∀ (a : Address) text, s.formulas[a]? = some text → s.inBounds a = true) →
      ∀ (a : Address) text, s.formulas[a]? = some text → ¬ s.ReachesVolatile text →
        (s.recalculate options clock).1.cells[a]? = (s.recalculate options clock').1.cells[a]? ∨
        ∃ fault, evaluateAt (s.context options.evaluation clock) a.label text = .error fault ∧
          fault.nestsTooDeep = true) ∧
    ((∀ (a : Address) text, s.formulas[a]? = some text → isVolatile text = false →
        ¬ s.ReachesVolatile text) →
      s.recalculate options clock = s.recalculate options clock') := by
  have hskipped : ∀ text, isSkipped options text = isVolatile text := by simp [isSkipped, hoptions]
  refine ⟨⟨?_, ?_, ?_⟩, ?_, ?_, ?_⟩
  · rw [formulas_recalculate, formulas_recalculate]
  · rw [calculated_recalculate, calculated_recalculate]
  · rw [volatile_recalculate, volatile_recalculate]
  · intro a ha
    have hall : ∀ text, s.formulas[a]? = some text → isSkipped options text = true := by
      intro text htext
      rw [hskipped, ha text htext]
    rw [getElem?_recalculate_of_isSkipped hall, getElem?_recalculate_of_isSkipped hall]
  · intro hs hin a text htext hreaches
    exact hs.indexed.getElem?_recalculate_timeless hin htext hreaches clock clock'
  · intro h
    have hresults : s.results options clock = s.results options clock' := by
      apply results_timeless
      intro a text htext hcovered
      rw [hskipped] at hcovered
      exact h a text htext hcovered
    unfold Sheet.recalculate
    rw [hresults]

/-- A sheet of a volatile formula and one that refers to no cell. -/
def beside : Sheet :=
  let s := (Operation.run .epoch (ofBounds 1 2) (.setInput ⟨0, 0⟩ "=NOW()")).sheet
  (Operation.run .epoch s (.setInput ⟨0, 1⟩ "=TRUE")).sheet

theorem formulas_beside : beside.formulas.toList = [(⟨0, 0⟩, "=NOW()"), (⟨0, 1⟩, "=TRUE")] := by
  decide

theorem not_mentions_truth (address : String) : ¬ Mentions (exprOf "=TRUE".toList) address := by
  intro h
  have hshape : Shape.ofExpr (Text.trim (exprOf "=TRUE".toList)) = .truth true := rfl
  cases h with
  | reference href =>
    rw [hshape] at href
    cases href
  | range hform => cases hform
  | part hpart =>
    rw [hshape] at hpart
    cases hpart

theorem not_reachesVolatile_truth : ¬ s.ReachesVolatile "=TRUE" := by
  intro h
  obtain ⟨other, hother, hvolatile⟩ := h
  rw [hother.eq_of_not_mentions not_mentions_truth] at hvolatile
  revert hvolatile
  decide

theorem recalculate_skipping_beside :
    (beside.recalculate .skipping .epoch).1.cells[(⟨0, 0⟩ : Address)]? =
        (beside.recalculate .skipping hourly).1.cells[(⟨0, 0⟩ : Address)]? ∧
      ((beside.recalculate .skipping .epoch).1.cells[(⟨0, 1⟩ : Address)]? =
          (beside.recalculate .skipping hourly).1.cells[(⟨0, 1⟩ : Address)]? ∨
        ∃ fault, evaluateAt (beside.context Options.default .epoch) (⟨0, 1⟩ : Address).label "=TRUE" =
          .error fault ∧ fault.nestsTooDeep = true) ∧
      beside.recalculate .skipping .epoch = beside.recalculate .skipping hourly := by
  have hoptions : RecalculationOptions.skipping.includeVolatile = false := rfl
  have hformula : ∀ (a : Address) text, beside.formulas[a]? = some text →
      (a, text) ∈ [((⟨0, 0⟩ : Address), "=NOW()"), (⟨0, 1⟩, "=TRUE")] := by
    intro a text htext
    rw [← formulas_beside]
    exact Std.ExtTreeMap.mem_toList_iff_getElem?_eq_some.2 htext
  have hcells : ∀ p ∈ [((⟨0, 0⟩ : Address), "=NOW()"), (⟨0, 1⟩, "=TRUE")],
      beside.inBounds p.1 = true ∧ (isVolatile p.2 = false → p.2 = "=TRUE") ∧
        (p.1 = ⟨0, 0⟩ → isVolatile p.2 = true) := by
    decide
  have hreachable : beside.Reachable := ((Reachable.ofBounds 1 2).run _ _).run _ _
  obtain ⟨-, hpassed, halone, hsame⟩ := recalculate_skipping (s := beside) hoptions .epoch hourly
  refine ⟨hpassed ⟨0, 0⟩ fun text htext => ?_,
    halone hreachable (fun a text htext => ?_) ⟨0, 1⟩ "=TRUE" (by decide) not_reachesVolatile_truth,
    hsame fun a text htext hquiet => ?_⟩
  · obtain ⟨-, -, hvolatile⟩ := hcells (⟨0, 0⟩, text) (hformula ⟨0, 0⟩ text htext)
    exact hvolatile rfl
  · exact (hcells (a, text) (hformula a text htext)).1
  · obtain ⟨-, htruth, -⟩ := hcells (a, text) (hformula a text htext)
    rw [show text = "=TRUE" from htruth hquiet]
    exact not_reachesVolatile_truth

/-! ## A reference to a cell that is passed over -/

/-- A sheet of a volatile formula and one that refers to its cell. -/
def mirror : Sheet :=
  let s := (Operation.run .epoch (ofBounds 1 2) (.setInput ⟨0, 0⟩ "=NOW()")).sheet
  (Operation.run .epoch s (.setInput ⟨0, 1⟩ "=A1")).sheet

theorem reachable_mirror : mirror.Reachable := ((Reachable.ofBounds 1 2).run _ _).run _ _

/-- The reference is not passed over, and has the time of the recalculation. -/
theorem results_mirror (now : Moment) :
    mirror.results .skipping now = [(⟨0, 1⟩, .text (String.ofList now.text))] := by
  let ctx : Context := mirror.context Options.default now
  have hclock : Constant ctx "=NOW()".toList (.text (String.ofList now.text)) := fun _ m =>
    ⟨{ m with readings := m.readings + 1 }, rfl, rfl⟩
  have hformula : ctx.formulaAt? (⟨0, 0⟩ : Address).label = some "=NOW()".toList :=
    reachable_mirror.indexed.formulaAt?_context (Address.ofName_name ⟨0, 0⟩) (by decide) (by decide) _ now
  have hlink : String.ofList (referenceTo ⟨0, 0⟩) = "=A1" := by decide +kernel
  have hcell := hclock.evaluateAt_referenceTo (show 1 < Options.default.maxDepth by decide)
    (show (⟨0, 1⟩ : Address) ≠ ⟨0, 0⟩ by decide) hformula
  rw [hlink] at hcell
  have hcovered : (mirror.formulas.toList.filter fun cell => !isSkipped .skipping cell.2) =
      [(⟨0, 1⟩, "=A1")] := by decide
  calc mirror.results .skipping now
      = evaluateCells ctx Evaluator.fresh
          (mirror.formulas.toList.filter fun cell => !isSkipped .skipping cell.2) := rfl
    _ = evaluateCells ctx Evaluator.fresh [(⟨0, 1⟩, "=A1")] := by rw [hcovered]
    _ = [(⟨0, 1⟩, resultValue (evaluateAt ctx (⟨0, 1⟩ : Address).label "=A1"))] := rfl
    _ = [(⟨0, 1⟩, .text (String.ofList now.text))] := by
      rw [hcell]
      rfl

theorem stored_mirror (now : Moment) :
    (mirror.recalculate .skipping now).1.cells[(⟨0, 1⟩ : Address)]?.bind Cell.stored =
      some (.text (String.ofList now.text)) := by
  have hmem : (⟨0, 1⟩, CellValue.text (String.ofList now.text)) ∈ mirror.results .skipping now := by
    rw [results_mirror]
    exact List.mem_singleton.2 rfl
  obtain ⟨cell, -, hcell⟩ := reachable_mirror.indexed.exists_stored hmem
  rw [hcell]
  rfl

/-- Passing over the volatile formulas does not make a recalculation independent
of the time. -/
theorem recalculate_mirror :
    mirror.Reachable ∧ RecalculationOptions.skipping.includeVolatile = false ∧
      (mirror.recalculate .skipping Moment.epoch).1.cells[(⟨0, 1⟩ : Address)]?.bind Cell.stored =
        some (.text "1970-01-01 00:00:00") ∧
      (mirror.recalculate .skipping noon).1.cells[(⟨0, 1⟩ : Address)]?.bind Cell.stored =
        some (.text "1970-01-01 12:00:00") ∧
      (mirror.recalculate .skipping Moment.epoch).1 ≠ (mirror.recalculate .skipping noon).1 := by
  have hepoch := stored_mirror .epoch
  have hnoon := stored_mirror noon
  rw [show String.ofList Moment.epoch.text = "1970-01-01 00:00:00" by decide +kernel] at hepoch
  rw [show String.ofList noon.text = "1970-01-01 12:00:00" by decide +kernel] at hnoon
  refine ⟨reachable_mirror, rfl, hepoch, hnoon, ?_⟩
  intro hsame
  rw [hsame, hnoon] at hepoch
  have htexts := CellValue.text.inj (Option.some.inj hepoch)
  revert htexts
  decide

end Sheet

end Spreadsheet

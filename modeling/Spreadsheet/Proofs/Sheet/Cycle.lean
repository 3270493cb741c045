import Spreadsheet.Proofs.Formula.Demand
import Spreadsheet.Proofs.Sheet.Context

/-
  Cells on a cycle have no values.

  In a set of formula cells of which each demands one of the set, none can be
  the first to have a value. A recalculation starts from a cache that holds no
  value for them, and no formula it evaluates, of the set or not, puts one
  there.
-/

namespace Spreadsheet.Sheet

open Formula (Context Cyclic Demands Evaluator Fails Keeps Options Shape Traps cellFormula
  cellFormula_traps exprOf fails_cellFormula isAddressForm_name keeps_cellFormula)

variable {S : Address → Prop}

theorem Indexed.cyclic {s : Sheet} (hs : s.Indexed)
    (hS : ∀ a, S a → s.inBounds a = true ∧
      ∃ text, s.formulas[a]? = some text ∧ Demands S (exprOf text.toList))
    (options : Options) (clock : Clock) : Cyclic (s.context options clock) S where
  inGrid a ha grid hgrid := by
    obtain ⟨hin, -⟩ := hS a ha
    cases hgrid
    simpa [Sheet.inBounds] using hin
  formula name a hname ha := by
    obtain ⟨hin, text, htext, hdemands⟩ := hS a ha
    exact ⟨text.toList, hs.formulaAt?_context hname hin htext options clock, hdemands⟩

/-- One visit keeps the cache clear, and at a cell of the set it fails. -/
theorem evalCell_of_cyclic {ctx : Context} (hS : Cyclic ctx S) {ev : Evaluator}
    (hev : ev.toMemory.Clear S) {a : Address} {formula : String}
    (ha : S a → ctx.formulaAt? a.label = some formula.toList) :
    (ev.evalCell ctx a.label formula).2.toMemory.Clear S ∧
      (S a → ∃ fault, (ev.evalCell ctx a.label formula).1 = .error fault) := by
  have hinside : ∀ n path, Traps ctx S (cellFormula ctx n path) := cellFormula_traps hS
  -- outside the set a value may be found; it is put in under a name outside it
  by_cases haS : S a
  · have hfails : Fails S (ev.formulaOf ctx a.label formula.toList) := fails_cellFormula
      (isAddressForm_name a) (fun _ _ => hinside _ _) hS (Address.ofName_name a) haS (ha haS)
    exact ⟨hfails.keeps.run hev, fun _ => hfails.run hev⟩
  · have hout : ∀ b, Address.ofName a.name = .ok b → ¬ S b := by
      intro b hb
      rw [Address.ofName_name] at hb
      cases hb
      exact haS
    have hkeeps : Keeps S (ev.formulaOf ctx a.label formula.toList) := keeps_cellFormula
      (isAddressForm_name a) (fun _ _ => hinside _ _) hout formula.toList
    exact ⟨hkeeps.run hev, fun h => absurd h haS⟩

theorem evaluateCells_of_cyclic {ctx : Context} (hS : Cyclic ctx S) {ev : Evaluator}
    (hev : ev.toMemory.Clear S) {cells : List (Address × String)}
    (hcells : ∀ cell ∈ cells, S cell.1 → ctx.formulaAt? cell.1.label = some cell.2.toList)
    {a : Address} {value : CellValue} (h : (a, value) ∈ evaluateCells ctx ev cells) (ha : S a) :
    ∃ message, value = .error message := by
  induction cells generalizing ev with
  | nil => cases h
  | cons cell rest ih =>
    obtain ⟨hclear, hfails⟩ := evalCell_of_cyclic hS hev (hcells cell List.mem_cons_self)
    rw [evaluateCells_cons] at h
    rcases List.mem_cons.1 h with heq | h
    · cases heq
      obtain ⟨fault, hfault⟩ := hfails ha
      rw [hfault]
      exact ⟨fault.message, rfl⟩
    · exact ih hclear (fun other hother => hcells other (List.mem_cons_of_mem cell hother)) h

/-- No cell on a cycle ever gets a value. After a recalculation of all formulas,
every cell of a set of formula cells in the grid, each of which demands one of
the set, stores an error. -/
theorem recalculate_cyclic {s : Sheet} (hs : s.Reachable) {options : RecalculationOptions}
    (hvolatile : options.includeVolatile = true) (clock : Clock)
    (hS : ∀ a, S a → s.inBounds a = true ∧
      ∃ text, s.formulas[a]? = some text ∧ Demands S (exprOf text.toList))
    {a : Address} (ha : S a) :
    ∃ cell message, (s.recalculate options clock).1.cells[a]? = some cell ∧
      cell.isFormula = true ∧ cell.stored = some (.error message) := by
  have hindexed := hs.indexed
  have hcyclic := hindexed.cyclic hS options.evaluation clock
  obtain ⟨-, text, htext, -⟩ := hS a ha
  have hcovered : isSkipped options text = false := by simp [isSkipped, hvolatile]
  obtain ⟨value, hvalue⟩ := exists_mem_results options htext hcovered clock
  -- the pass starts from an empty cache, which holds no value at all
  obtain ⟨message, rfl⟩ := evaluateCells_of_cyclic hcyclic (fun _ _ _ _ => by simp [Evaluator.fresh])
    (fun cell hcell hcellS => by
      have htext := Std.ExtTreeMap.mem_toList_iff_getElem?_eq_some.1 (List.mem_filter.1 hcell).1
      obtain ⟨hin, -⟩ := hS cell.1 hcellS
      exact hindexed.formulaAt?_context (Address.ofName_name cell.1) hin htext _ _) hvalue ha
  obtain ⟨cell, hformula, hstored⟩ := hindexed.exists_stored hvalue
  exact ⟨cell.store (.error message), message, hstored, hformula, rfl⟩

/-- A sheet with a cycle: the first cell refers to the second, and the second
sums a range over the first. -/
def loop : Sheet :=
  let s := (Operation.run .epoch (ofBounds 2 2) (.setInput ⟨0, 0⟩ "=B1+1")).sheet
  (Operation.run .epoch s (.setInput ⟨0, 1⟩ "=SUM(A1:A2)")).sheet

theorem demands_loop {a : Address} (ha : a ∈ [(⟨0, 0⟩ : Address), ⟨0, 1⟩]) :
    loop.inBounds a = true ∧ ∃ text, loop.formulas[a]? = some text ∧
      Demands (· ∈ [(⟨0, 0⟩ : Address), ⟨0, 1⟩]) (exprOf text.toList) := by
  rcases List.mem_cons.1 ha with rfl | ha
  · have hchain : Shape.ofExpr (Text.trim (exprOf "=B1+1".toList)) =
        .chain ⟨['B', '1'], [(.add, ['1'])]⟩ := rfl
    have hreference : Demands (· ∈ [(⟨0, 0⟩ : Address), ⟨0, 1⟩]) ['B', '1'] :=
      .reference (a := ⟨0, 1⟩) rfl rfl (by decide)
    exact ⟨by decide, "=B1+1", by decide, .operand hchain (by decide) hreference⟩
  · obtain rfl := List.mem_singleton.1 ha
    have hcall : Shape.ofExpr (Text.trim (exprOf "=SUM(A1:A2)".toList)) =
        .call "SUM".toList "A1:A2".toList := rfl
    have hrange : Range.ofText (Text.trim "A1:A2".toList) = .ok (.spanning ⟨0, 0⟩ ⟨1, 0⟩) := rfl
    have harg : "A1:A2".toList ∈ Formula.arguments "A1:A2".toList := by decide
    refine ⟨by decide, "=SUM(A1:A2)", by decide, ?_⟩
    exact .range (a := ⟨0, 0⟩) (f := .sum) hcall (by decide) harg (by decide) hrange (by decide)
      (by decide)

theorem recalculate_cyclic_loop :
    ∃ cell message, (loop.recalculate .default .epoch).1.cells[(⟨0, 1⟩ : Address)]? = some cell ∧
      cell.isFormula = true ∧ cell.stored = some (.error message) :=
  recalculate_cyclic (((Reachable.ofBounds 2 2).run _ _).run _ _) rfl .epoch (fun _ => demands_loop)
    (by decide)

end Spreadsheet.Sheet

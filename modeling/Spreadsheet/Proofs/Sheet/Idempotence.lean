import Spreadsheet.Proofs.Sheet.Context

/-
  Recalculating again.

  What a recalculation computes depends on the inputs of the sheet only, and
  what it writes are results, which are no inputs. So a second recalculation by a
  clock that reads the same computes what the first one did and finds all of it
  stored, and two sheets that differ in old results only come to the same
  (`recalculate_again`).
-/

namespace Spreadsheet.Sheet

variable {s t : Sheet}

theorem SameInputs.results_eq (h : s.SameInputs t) (hs : s.Indexed) (ht : t.Indexed)
    (options : RecalculationOptions) (clock : Clock) : t.results options clock = s.results options clock := by
  rw [results, results, h.context_eq hs ht, h.formulas]

theorem SameInputs.stats_eq (h : s.SameInputs t) (hs : s.Indexed) (ht : t.Indexed)
    (options : RecalculationOptions) (clock : Clock) :
    (t.recalculate options clock).2 = (s.recalculate options clock).2 := by
  simp only [recalculate, h.results_eq hs ht, h.formulas]

/-- The results of a recalculation are stored in the sheet that it leaves. -/
theorem Indexed.setResults_recalculate (hs : s.Indexed) (options : RecalculationOptions) (clock : Clock) :
    (s.recalculate options clock).1.setResults (s.results options clock) = (s.recalculate options clock).1 :=
  setResults_of_stored fun _ hresult => hs.exists_stored hresult

/-- A second recalculation changes nothing and reports what the first one did. -/
theorem Indexed.recalculate_recalculate (hs : s.Indexed) (options : RecalculationOptions) (clock : Clock) :
    (s.recalculate options clock).1.recalculate options clock = s.recalculate options clock := by
  have hindexed : (s.recalculate options clock).1.Indexed := stable_indexed.toSteady.setResults hs _
  have hinputs : s.SameInputs (s.recalculate options clock).1 := (frame_setResults s _).toSameInputs
  refine Prod.ext ?_ (hinputs.stats_eq hs hindexed options clock)
  calc ((s.recalculate options clock).1.recalculate options clock).1
      = (s.recalculate options clock).1.setResults ((s.recalculate options clock).1.results options clock) := rfl
    _ = (s.recalculate options clock).1.setResults (s.results options clock) := by
      rw [hinputs.results_eq hs hindexed]
    _ = (s.recalculate options clock).1 := hs.setResults_recalculate options clock

/-- A cell with a result is given by its formula, its kind and the result. -/
theorem store_congr {cell cell' : Cell} (hformula : cell'.formula = cell.formula)
    (hkind : cell'.kind = cell.kind) (value : CellValue) : cell'.store value = cell.store value := by
  simp only [Cell.store, hformula, hkind]

theorem Reachable.exists_calculated (hs : s.Reachable) {options : RecalculationOptions} {clock : Clock}
    {a : Address} {text : String} (htext : s.formulas[a]? = some text) {value : CellValue}
    (hvalue : (a, value) ∈ s.results options clock) :
    ∃ cell : Cell, cell.formula = some text ∧ cell.kind = .formula ∧
      (s.recalculate options clock).1.cells[a]? = some (cell.store value) := by
  obtain ⟨cell, text', hcell, hformula, -, hstored⟩ := hs.indexed.exists_calculated hvalue
  rw [hs.indexed.formulas_of_cell hcell] at htext
  exact ⟨cell, htext, (hs.kind_eq_formula hcell).2 (isFormula_of_formula hformula), hstored⟩

/-- Recalculating is idempotent and blind to old results. A second
recalculation, by a clock that reads the same, reports what the first one did
and leaves the same sheet. Two sheets of the same size with the same formulas and
the same cells without a formula get the same numbers and, in every cell that is
calculated, the same value, whatever is stored there. -/
theorem recalculate_again (hs : s.Reachable) (options : RecalculationOptions) (clock : Clock) :
    (s.recalculate options clock).1.recalculate options clock = s.recalculate options clock ∧
    ∀ t : Sheet, t.Reachable → s.SameInputs t →
      (t.recalculate options clock).2 = (s.recalculate options clock).2 ∧
      ∀ (a : Address) (text : String), s.formulas[a]? = some text → isSkipped options text = false →
        ∃ (cell : Cell) (value : CellValue), cell.formula = some text ∧
          (s.recalculate options clock).1.cells[a]? = some (cell.store value) ∧
          (t.recalculate options clock).1.cells[a]? = some (cell.store value) := by
  have hindexed := hs.indexed
  refine ⟨hindexed.recalculate_recalculate options clock, fun t ht h => ?_⟩
  refine ⟨h.stats_eq hindexed ht.indexed options clock, fun a text htext hcovered => ?_⟩
  obtain ⟨value, hvalue⟩ := exists_mem_results options htext hcovered clock
  have hvalue' : (a, value) ∈ t.results options clock := by rwa [h.results_eq hindexed ht.indexed]
  obtain ⟨cell, hformula, hkind, hstored⟩ := hs.exists_calculated htext hvalue
  obtain ⟨cell', hformula', hkind', hstored'⟩ := ht.exists_calculated (h.formulas ▸ htext) hvalue'
  refine ⟨cell, value, hformula, hstored, ?_⟩
  rw [hstored', store_congr (hformula'.trans hformula.symm) (hkind'.trans hkind.symm)]

/-- The sheet `mixed` after a text that reads as a formula was stored as the
result of its first formula. -/
def stale : Sheet := (Operation.run .epoch mixed (.setResult ⟨0, 0⟩ (.text "=1"))).sheet

theorem reachable_stale : stale.Reachable := reachable_mixed.run _ _

theorem recalculate_again_stale :
    (stale.recalculate .default .epoch).2 = (mixed.recalculate .default .epoch).2 ∧
    ∃ (cell : Cell) (value : CellValue), cell.formula = some "=NOW()" ∧
      (mixed.recalculate .default .epoch).1.cells[(⟨0, 0⟩ : Address)]? = some (cell.store value) ∧
      (stale.recalculate .default .epoch).1.cells[(⟨0, 0⟩ : Address)]? = some (cell.store value) := by
  obtain ⟨-, hblind⟩ := recalculate_again reachable_mixed .default .epoch
  have hinputs : mixed.SameInputs stale := (frame_setResult mixed ⟨0, 0⟩ (.text "=1")).toSameInputs
  obtain ⟨hstats, hcells⟩ := hblind stale reachable_stale hinputs
  exact ⟨hstats, hcells ⟨0, 0⟩ "=NOW()" (by decide) rfl⟩

end Spreadsheet.Sheet

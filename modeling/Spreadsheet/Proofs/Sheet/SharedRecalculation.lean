import Mathlib.Data.List.Forall2
import Spreadsheet.Proofs.Formula.SharedCache
import Spreadsheet.Proofs.Sheet.Context

/-
  Recalculation with one evaluator.

  A recalculation evaluates the formulas of a sheet one after another and hands
  the cache on. `Evaluator.visits` are the outcomes of such visits, in any order
  of the cells. Between two visits the evaluator is idle: no cell is in progress
  and the cache is filled. So the next visit of a cell of a steady set starts from
  a cache that holds more than the empty one, and nothing that it would not come
  to itself.
-/

namespace Spreadsheet

open Formula (Context Evaluator Fault Filled Options Value evaluateAt)

namespace Formula.Evaluator

variable {ctx : Context} {T : String → Prop}

/-- The outcomes of evaluating the formulas of cells in order, each with the
cache that the one before it left. -/
def visits (ctx : Context) (ev : Evaluator) : List (Address × String) → List (Except Fault Value)
  | [] => []
  | (a, formula) :: rest =>
    let (outcome, ev) := ev.evalCell ctx a.label formula
    outcome :: visits ctx ev rest

/-- The state between two visits: no cell is in progress, and the cache was
filled by evaluation. -/
structure Idle (ctx : Context) (T : String → Prop) (ev : Evaluator) : Prop where
  path : ev.path = []
  filled : Filled ctx T ev.cache

theorem idle_fresh (ctx : Context) (T : String → Prop) : fresh.Idle ctx T := ⟨rfl, .empty⟩

/-- A visit leaves the evaluator idle. The outcome of a cell of the set is the one
of the cell by itself, unless by itself it nests too deep. -/
theorem Idle.evalCell (hT : Steady ctx T) {ev : Evaluator} (h : ev.Idle ctx T) {a : Address}
    {formula : String} (ha : ctx.formulaAt? a.label = some formula.toList) :
    (ev.evalCell ctx a.label formula).2.Idle ctx T ∧
      (T a.label → (ev.evalCell ctx a.label formula).1 = evaluateAt ctx a.label formula ∨
        ∃ fault, evaluateAt ctx a.label formula = .error fault ∧ fault.nestsTooDeep = true) := by
  obtain ⟨memory, path, depth⟩ := ev
  obtain ⟨rfl, hfilled⟩ := h
  have havoids : Cache.Avoids memory.cache [] := fun _ hkey => by cases hkey
  have hempty : Cache.Sub (∅ : Memory).cache memory.cache := fun _ _ hv => by simp at hv
  let alone : Run Value := cellFormula ctx ctx.options.maxDepth [] a.label formula.toList
  show ((⟨memory, [], depth⟩ : Evaluator).run alone).2.Idle ctx T ∧
    (T a.label → ((⟨memory, [], depth⟩ : Evaluator).run alone).1 = (fresh.run alone).1 ∨
      ∃ fault, (fresh.run alone).1 = .error fault ∧ fault.nestsTooDeep = true)
  simp only [run, fresh]
  constructor
  · have hsettles : Settles ctx T [] _ Value alone _ := cellFormula_settles hT _ [] a.name _
      (isAddressForm_name a) ha
    have hsettles := hsettles memory hfilled havoids
    cases hrun : alone memory with
    | ok v m =>
      rw [hrun] at hsettles
      exact ⟨rfl, hsettles.1.filled⟩
    | error fault m =>
      rw [hrun] at hsettles
      exact ⟨rfl, hsettles.filled⟩
  · intro hkey
    have hagrees : Agrees ctx T [] Value alone alone := cellFormula_agrees hT _ [] a.name _
      (isAddressForm_name a) ha hkey
    -- on the cache as it is and on the empty one, which is part of it
    have hagrees := hagrees ∅ memory hfilled hempty havoids
    cases hrun : alone ∅ with
    | ok v m =>
      rw [hrun] at hagrees
      obtain ⟨d, hd, -⟩ := hagrees
      rw [hd]
      exact Or.inl rfl
    | error fault m =>
      rw [hrun] at hagrees
      rcases hagrees with hnest | ⟨d, hd⟩
      · exact Or.inr ⟨fault, rfl, hnest⟩
      · rw [hd]
        exact Or.inl rfl

/-- In any order of visits, each of a cell of the set has the outcome of the cell
by itself, unless by itself it nests too deep. -/
theorem Idle.visits (hT : Steady ctx T) {ev : Evaluator} (h : ev.Idle ctx T)
    (order : List (Address × String))
    (horder : ∀ cell ∈ order, ctx.formulaAt? cell.1.label = some cell.2.toList) :
    List.Forall₂ (fun cell outcome => T cell.1.label → outcome = evaluateAt ctx cell.1.label cell.2 ∨
        ∃ fault, evaluateAt ctx cell.1.label cell.2 = .error fault ∧ fault.nestsTooDeep = true)
      order (ev.visits ctx order) := by
  induction order generalizing ev with
  | nil => exact .nil
  | cons cell rest ih =>
    obtain ⟨hidle, houtcome⟩ := h.evalCell hT (horder cell List.mem_cons_self)
    exact .cons houtcome (ih hidle fun other hother => horder other (List.mem_cons_of_mem cell hother))

end Formula.Evaluator

namespace Sheet

/-- A recalculation visits the cells and keeps the outcomes as cells store
them. -/
theorem evaluateCells_eq (ctx : Context) (ev : Evaluator) (order : List (Address × String)) :
    evaluateCells ctx ev order =
      List.zipWith (fun cell outcome => (cell.1, resultValue outcome)) order (ev.visits ctx order) := by
  induction order generalizing ev with
  | nil => rfl
  | cons cell rest ih =>
    rw [evaluateCells_cons, Evaluator.visits, List.zipWith_cons_cons, ih]

/-- Each result of visits on an idle evaluator is the one of its cell by itself,
if the cell is one of the set, unless by itself it nests too deep. -/
theorem agrees_of_mem_evaluateCells {ctx : Context} {T : String → Prop} (hT : Formula.Steady ctx T)
    {ev : Evaluator} (h : ev.Idle ctx T) {cells : List (Address × String)}
    (hcells : ∀ cell ∈ cells, ctx.formulaAt? cell.1.label = some cell.2.toList) {a : Address}
    (ha : T a.label) {value : CellValue} (hmem : (a, value) ∈ evaluateCells ctx ev cells) :
    ∃ text, (a, text) ∈ cells ∧ (value = resultValue (evaluateAt ctx a.label text) ∨
      ∃ fault, evaluateAt ctx a.label text = .error fault ∧ fault.nestsTooDeep = true) := by
  induction cells generalizing ev with
  | nil => cases hmem
  | cons cell rest ih =>
    obtain ⟨hidle, houtcome⟩ := h.evalCell hT (hcells cell List.mem_cons_self)
    rw [evaluateCells_cons] at hmem
    rcases List.mem_cons.1 hmem with heq | hmem
    · cases heq
      refine ⟨cell.2, List.mem_cons_self, ?_⟩
      rcases houtcome ha with hsame | hnest
      · exact Or.inl (congrArg resultValue hsame)
      · exact Or.inr hnest
    · obtain ⟨text, htext, hagrees⟩ :=
        ih hidle (fun other hother => hcells other (List.mem_cons_of_mem cell hother)) hmem
      exact ⟨text, List.mem_cons_of_mem cell htext, hagrees⟩

/-- So is each result of a recalculation, with every formula in the grid. -/
theorem Indexed.results_agree {s : Sheet} (hs : s.Indexed)
    (hin : ∀ (a : Address) text, s.formulas[a]? = some text → s.inBounds a = true)
    {options : RecalculationOptions} {clock : Clock} {T : String → Prop}
    (hT : Formula.Steady (s.context options.evaluation clock) T) {a : Address} (ha : T a.label)
    {text : String} (htext : s.formulas[a]? = some text) {value : CellValue}
    (hvalue : (a, value) ∈ s.results options clock) :
    value = resultValue (evaluateAt (s.context options.evaluation clock) a.label text) ∨
      ∃ fault, evaluateAt (s.context options.evaluation clock) a.label text = .error fault ∧
        fault.nestsTooDeep = true := by
  have hformula : ∀ cell ∈ s.formulas.toList.filter fun c => !isSkipped options c.2,
      s.formulas[cell.1]? = some cell.2 := fun cell hcell =>
    Std.ExtTreeMap.mem_toList_iff_getElem?_eq_some.1 (List.mem_filter.1 hcell).1
  obtain ⟨text', hmem, hagrees⟩ := agrees_of_mem_evaluateCells hT (Evaluator.idle_fresh _ _)
    (fun cell hcell => hs.formulaAt?_context (Address.ofName_name cell.1)
      (hin cell.1 cell.2 (hformula cell hcell)) (hformula cell hcell) _ _) ha hvalue
  obtain rfl : text' = text := Option.some.inj ((hformula _ hmem).symm.trans htext)
  exact hagrees

/-- A formula cell that a recalculation covers stores its result by itself,
unless by itself it nests too deep. -/
theorem Indexed.getElem?_recalculate {s : Sheet} (hs : s.Indexed)
    (hin : ∀ (a : Address) text, s.formulas[a]? = some text → s.inBounds a = true)
    {options : RecalculationOptions} {clock : Clock} {T : String → Prop}
    (hT : Formula.Steady (s.context options.evaluation clock) T) {a : Address} (ha : T a.label) {cell : Cell}
    {text : String} (hcell : s.cells[a]? = some cell) (hformula : cell.formula = some text)
    (hcovered : isSkipped options text = false) :
    (s.recalculate options clock).1.cells[a]? =
        some (cell.store (resultValue (evaluateAt (s.context options.evaluation clock) a.label text))) ∨
      ∃ fault, evaluateAt (s.context options.evaluation clock) a.label text = .error fault ∧
        fault.nestsTooDeep = true := by
  have htext : s.formulas[a]? = some text := (hs.formulas_of_cell hcell).trans hformula
  have hisFormula : cell.isFormula = true := isFormula_of_formula hformula
  obtain ⟨value, hvalue⟩ := exists_mem_results options htext hcovered clock
  rcases hs.results_agree hin hT ha htext hvalue with rfl | hfault
  · exact .inl (getElem?_setResults_of_mem (nodup_results s options clock) hvalue hcell hisFormula)
  · exact .inr hfault

/-- Sharing one evaluator is sound in any order. With every stored cell in the
grid, visiting formula cells in any order on one evaluator has the outcomes of
fresh evaluations, values and faults alike, except where a fresh one fails
because the cells nest too deep. A recalculation makes such visits, row by
row. -/
theorem visits_agree {s : Sheet} (hs : s.Reachable) (hin : ∀ a ∈ s.cells, s.inBounds a = true)
    (options : RecalculationOptions) (now : Moment) :
    (∀ order : List (Address × String), (∀ cell ∈ order, s.formulas[cell.1]? = some cell.2) →
      List.Forall₂ (fun cell outcome =>
          outcome = evaluateAt (s.context options.evaluation now) cell.1.label cell.2 ∨
          ∃ fault, evaluateAt (s.context options.evaluation now) cell.1.label cell.2 = .error fault ∧
            fault.nestsTooDeep = true)
        order (Evaluator.fresh.visits (s.context options.evaluation now) order)) ∧
    ∃ order, order.Sublist s.formulas.toList ∧ (∀ cell ∈ order, s.formulas[cell.1]? = some cell.2) ∧
      s.results options now = List.zipWith (fun cell outcome => (cell.1, resultValue outcome)) order
        (Evaluator.fresh.visits (s.context options.evaluation now) order) := by
  constructor
  · intro order horder
    have hsteady : Formula.Steady (s.context options.evaluation now) fun _ => True :=
      Formula.steady_of_still (Clock.still_fixed now)
    refine ((Evaluator.idle_fresh _ _).visits hsteady order fun cell hcell => ?_).imp
      fun _ _ houtcome => houtcome trivial
    have htext := horder cell hcell
    obtain ⟨c, hc, -⟩ := hs.indexed.exists_cell htext
    have hbounds := hin cell.1 (Std.ExtTreeMap.mem_iff_isSome_getElem?.2 (by rw [hc]; rfl))
    exact hs.indexed.formulaAt?_context (Address.ofName_name cell.1) hbounds htext _ now
  · refine ⟨_, List.filter_sublist, fun cell hcell => ?_, evaluateCells_eq _ _ _⟩
    exact Std.ExtTreeMap.mem_toList_iff_getElem?_eq_some.1 (List.mem_filter.1 hcell).1

/-- A sheet of two formula cells, of which the first refers to the second. -/
def pair : Sheet :=
  let s := (Operation.run .epoch (ofBounds 1 2) (.setInput ⟨0, 0⟩ "=B1")).sheet
  (Operation.run .epoch s (.setInput ⟨0, 1⟩ "=1")).sheet

theorem reachable_pair : pair.Reachable := ((Reachable.ofBounds 1 2).run _ _).run _ _

theorem inBounds_pair : ∀ a ∈ pair.cells, pair.inBounds a = true := by
  have hkeys : ∀ a ∈ pair.cells.keys, pair.inBounds a = true := by decide
  exact fun a ha => hkeys a (Std.ExtTreeMap.mem_keys.2 ha)

theorem visits_agree_pair :
    List.Forall₂ (fun cell outcome =>
        outcome = evaluateAt (pair.context Options.default .epoch) cell.1.label cell.2 ∨
        ∃ fault, evaluateAt (pair.context Options.default .epoch) cell.1.label cell.2 = .error fault ∧
          fault.nestsTooDeep = true)
      [((⟨0, 1⟩ : Address), "=1"), (⟨0, 0⟩, "=B1")]
      (Evaluator.fresh.visits (pair.context Options.default .epoch) [(⟨0, 1⟩, "=1"), (⟨0, 0⟩, "=B1")]) :=
  (visits_agree reachable_pair inBounds_pair .default .epoch).1 _ (by decide)

end Sheet

end Spreadsheet

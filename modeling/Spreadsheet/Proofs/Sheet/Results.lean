import Spreadsheet.Proofs.Sheet.Index

/-
  What storing results leaves in the cells.

  Results are stored one after another, so of several results for one cell the
  last would count. A recalculation has at most one for each cell
  (`nodup_results`), and then every formula cell that has a result stores it
  (`getElem?_setResults_of_mem`), and nothing else changes.
-/

namespace Spreadsheet

open Formula (Context Evaluator)

namespace Sheet

variable {s : Sheet}

theorem isFormula_of_formula {cell : Cell} {text : String} (h : cell.formula = some text) :
    cell.isFormula = true := by
  rw [Cell.isFormula, h]
  rfl

theorem setResults_cons (s : Sheet) (a : Address) (value : CellValue)
    (rs : List (Address × CellValue)) :
    s.setResults ((a, value) :: rs) = (s.setResult a value).sheet.setResults rs := rfl

theorem getElem?_setResult (s : Sheet) (a : Address) (value : CellValue) (b : Address) :
    (s.setResult a value).sheet.cells[b]? =
      if a = b then s.cells[b]?.map fun cell => if cell.isFormula then cell.store value else cell
      else s.cells[b]? := by
  unfold Sheet.setResult
  by_cases hab : a = b
  · subst hab
    rw [if_pos rfl]
    cases hcell : s.cells[a]? with
    | none => simp [hcell]
    | some cell => cases hf : cell.isFormula <;> simp [hcell, hf]
  · rw [if_neg hab]
    cases s.cells[a]? with
    | none => rfl
    | some cell =>
      have hcmp : compare a b ≠ .eq := fun h => hab (Std.LawfulEqOrd.eq_of_compare h)
      cases hf : cell.isFormula <;> simp [hf, Std.ExtTreeMap.getElem?_insert, hcmp]

theorem getElem?_setResults_of_notMem {rs : List (Address × CellValue)} {a : Address}
    (h : a ∉ rs.map Prod.fst) : (s.setResults rs).cells[a]? = s.cells[a]? := by
  induction rs generalizing s with
  | nil => rfl
  | cons r rs ih =>
    obtain ⟨b, value⟩ := r
    simp only [List.map_cons, List.mem_cons, not_or] at h
    rw [setResults_cons, ih h.2, getElem?_setResult, if_neg (Ne.symm h.1)]

theorem getElem?_setResults_of_mem {rs : List (Address × CellValue)}
    (hrs : (rs.map Prod.fst).Nodup) {a : Address} {value : CellValue} (h : (a, value) ∈ rs)
    {cell : Cell} (hcell : s.cells[a]? = some cell) (hformula : cell.isFormula = true) :
    (s.setResults rs).cells[a]? = some (cell.store value) := by
  induction rs generalizing s with
  | nil => cases h
  | cons r rs ih =>
    obtain ⟨b, w⟩ := r
    obtain ⟨hb, hrs⟩ := List.nodup_cons.1 hrs
    rw [setResults_cons]
    rcases List.mem_cons.1 h with heq | h
    · cases heq
      rw [getElem?_setResults_of_notMem hb, getElem?_setResult, if_pos rfl, hcell,
        Option.map_some, if_pos hformula]
    · have hne : b ≠ a := by
        intro hsame
        subst hsame
        exact hb (List.mem_map.2 ⟨_, h, rfl⟩)
      refine ih hrs h ?_
      rw [getElem?_setResult, if_neg hne, hcell]

theorem store_store (cell : Cell) (value : CellValue) :
    (cell.store value).store value = cell.store value := rfl

theorem setResult_of_stored {a : Address} {cell : Cell} {value : CellValue}
    (hcell : s.cells[a]? = some (cell.store value)) (hformula : cell.isFormula = true) :
    (s.setResult a value).sheet = s := by
  have hcells : s.cells.insert a (cell.store value) = s.cells := by
    refine Std.ExtTreeMap.ext_getElem? fun b => ?_
    rw [Std.ExtTreeMap.getElem?_insert]
    split
    · rename_i hab
      rw [← Std.LawfulEqOrd.eq_of_compare hab, hcell]
    · rfl
  unfold Sheet.setResult
  rw [hcell]
  dsimp only
  rw [if_pos (show (cell.store value).isFormula = true from hformula), store_store, hcells]

theorem setResults_of_stored {rs : List (Address × CellValue)}
    (h : ∀ result ∈ rs, ∃ cell : Cell, cell.isFormula = true ∧
      s.cells[result.1]? = some (cell.store result.2)) : s.setResults rs = s := by
  induction rs with
  | nil => rfl
  | cons r rs ih =>
    obtain ⟨a, value⟩ := r
    obtain ⟨cell, hformula, hcell⟩ := h (a, value) List.mem_cons_self
    rw [setResults_cons, setResult_of_stored hcell hformula]
    exact ih fun result hresult => h result (List.mem_cons_of_mem _ hresult)

/-! ## The results of a recalculation -/

theorem evaluateCells_cons (ctx : Context) (ev : Evaluator) (cell : Address × String)
    (rest : List (Address × String)) :
    evaluateCells ctx ev (cell :: rest) =
      (cell.1, resultValue (ev.evalCell ctx cell.1.label cell.2).1) ::
        evaluateCells ctx (ev.evalCell ctx cell.1.label cell.2).2 rest := rfl

theorem map_fst_evaluateCells (ctx : Context) (ev : Evaluator) (cells : List (Address × String)) :
    (evaluateCells ctx ev cells).map Prod.fst = cells.map Prod.fst := by
  induction cells generalizing ev with
  | nil => rfl
  | cons cell rest ih => rw [evaluateCells_cons, List.map_cons, List.map_cons, ih]

theorem nodup_toList_keys {β : Type} (g : Grid β) : (g.toList.map Prod.fst).Nodup := by
  rw [List.Nodup, List.pairwise_map]
  refine g.distinct_keys_toList.imp (fun {p q} hpq heq => hpq ?_)
  rw [heq]
  exact Std.ReflCmp.compare_self

theorem nodup_results (s : Sheet) (options : RecalculationOptions) (clock : Clock) :
    ((s.results options clock).map Prod.fst).Nodup := by
  rw [Sheet.results, map_fst_evaluateCells]
  exact (nodup_toList_keys s.formulas).sublist (List.filter_sublist.map Prod.fst)

theorem length_results (s : Sheet) (options : RecalculationOptions) (clock : Clock) :
    (s.results options clock).length =
      (s.formulas.toList.filter fun cell => !isSkipped options cell.2).length := by
  have hcells := congrArg List.length (map_fst_evaluateCells (s.context options.evaluation clock)
    Evaluator.fresh (s.formulas.toList.filter fun cell => !isSkipped options cell.2))
  rw [List.length_map, List.length_map] at hcells
  exact hcells

theorem formulas_recalculate (s : Sheet) (options : RecalculationOptions) (clock : Clock) :
    (s.recalculate options clock).2.formulas = s.formulas.size := rfl

theorem calculated_recalculate (s : Sheet) (options : RecalculationOptions) (clock : Clock) :
    (s.recalculate options clock).2.calculated =
      (s.formulas.toList.filter fun cell => !isSkipped options cell.2).length := by
  rw [← length_results s options clock]
  rfl

theorem volatile_recalculate (s : Sheet) (options : RecalculationOptions) (clock : Clock) :
    (s.recalculate options clock).2.volatile =
      (s.formulas.toList.filter fun cell => Formula.isVolatile cell.2).length := rfl

theorem mem_map_results {options : RecalculationOptions} {clock : Clock} {a : Address} :
    a ∈ (s.results options clock).map Prod.fst ↔
      ∃ text, s.formulas[a]? = some text ∧ isSkipped options text = false := by
  rw [Sheet.results, map_fst_evaluateCells, List.mem_map]
  constructor
  · rintro ⟨⟨b, text⟩, hcell, rfl⟩
    obtain ⟨htext, hcovered⟩ := List.mem_filter.1 hcell
    exact ⟨text, Std.ExtTreeMap.mem_toList_iff_getElem?_eq_some.1 htext, by simpa using hcovered⟩
  · rintro ⟨text, htext, hcovered⟩
    refine ⟨(a, text), List.mem_filter.2 ⟨?_, by simp [hcovered]⟩, rfl⟩
    exact Std.ExtTreeMap.mem_toList_iff_getElem?_eq_some.2 htext

theorem exists_mem_results (options : RecalculationOptions) {a : Address} {text : String}
    (htext : s.formulas[a]? = some text) (hcovered : isSkipped options text = false) (clock : Clock) :
    ∃ value, (a, value) ∈ s.results options clock := by
  have hmem : a ∈ (s.results options clock).map Prod.fst := mem_map_results.2 ⟨text, htext, hcovered⟩
  obtain ⟨⟨b, value⟩, hb, rfl⟩ := List.mem_map.1 hmem
  exact ⟨value, hb⟩

theorem getElem?_recalculate_of_isSkipped {options : RecalculationOptions} {a : Address}
    (h : ∀ text, s.formulas[a]? = some text → isSkipped options text = true) (clock : Clock) :
    (s.recalculate options clock).1.cells[a]? = s.cells[a]? := by
  apply getElem?_setResults_of_notMem
  intro hmem
  obtain ⟨text, htext, hcovered⟩ := mem_map_results.1 hmem
  rw [h text htext] at hcovered
  cases hcovered

/-- A result is one of a formula cell that the recalculation covers, and is
stored there afterwards. -/
theorem Indexed.exists_calculated (hs : s.Indexed) {options : RecalculationOptions} {clock : Clock}
    {a : Address} {value : CellValue} (hvalue : (a, value) ∈ s.results options clock) :
    ∃ (cell : Cell) (text : String), s.cells[a]? = some cell ∧ cell.formula = some text ∧
      isSkipped options text = false ∧
      (s.recalculate options clock).1.cells[a]? = some (cell.store value) := by
  obtain ⟨text, htext, hcovered⟩ := mem_map_results.1 (List.mem_map.2 ⟨_, hvalue, rfl⟩)
  obtain ⟨cell, hcell, hformula⟩ := hs.exists_cell htext
  exact ⟨cell, text, hcell, hformula, hcovered,
    getElem?_setResults_of_mem (nodup_results s options clock) hvalue hcell (isFormula_of_formula hformula)⟩

theorem Indexed.exists_stored (hs : s.Indexed) {options : RecalculationOptions} {clock : Clock}
    {a : Address} {value : CellValue} (hvalue : (a, value) ∈ s.results options clock) :
    ∃ cell : Cell, cell.isFormula = true ∧
      (s.recalculate options clock).1.cells[a]? = some (cell.store value) := by
  obtain ⟨cell, text, -, hformula, -, hstored⟩ := hs.exists_calculated hvalue
  exact ⟨cell, isFormula_of_formula hformula, hstored⟩

end Sheet

end Spreadsheet

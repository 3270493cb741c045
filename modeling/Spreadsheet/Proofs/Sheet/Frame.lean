import Mathlib.Data.List.Basic
import Spreadsheet.Proofs.Sheet.Results

/-
  What a recalculation leaves as it was, and what it counts.

  Storing a result changes what one formula cell stores, and storing any number
  of them changes nothing else either (`frame_setResults`). The numbers that a
  recalculation reports are kept while the index of formulas is gone through;
  since the index mirrors the cells, they are numbers of cells: of the sheet as
  it was, and for the errors of the sheet as it is afterwards
  (`recalculate_frame`).
-/

namespace Spreadsheet.Sheet

open Formula (isVolatile)

/-! ## Sheets that differ in results only -/

/-- Whether two sheets have the same size, the same formulas and the same cells
without a formula. What their formula cells store may differ. -/
structure SameInputs (s t : Sheet) : Prop where
  rows : t.rows = s.rows
  cols : t.cols = s.cols
  formulas : t.formulas = s.formulas
  literals : ∀ (a : Address) (cell : Cell), cell.isFormula = false →
    (t.cells[a]? = some cell ↔ s.cells[a]? = some cell)

/-- Whether a sheet is another one after results of formulas were stored: the
inputs are the same, and so are the listeners, the addresses of the stored cells
and what kind of cell stands there. -/
structure Frame (s t : Sheet) : Prop extends SameInputs s t where
  listeners : t.listeners = s.listeners
  nextListener : t.nextListener = s.nextListener
  stored : ∀ a : Address, a ∈ t.cells ↔ a ∈ s.cells
  source : ∀ (a : Address) (cell cell' : Cell), s.cells[a]? = some cell → t.cells[a]? = some cell' →
    cell'.formula = cell.formula ∧ cell'.kind = cell.kind

theorem SameInputs.refl (s : Sheet) : s.SameInputs s := ⟨rfl, rfl, rfl, fun _ _ _ => Iff.rfl⟩

theorem SameInputs.trans {s t u : Sheet} (h : s.SameInputs t) (h' : t.SameInputs u) : s.SameInputs u :=
  ⟨h'.rows.trans h.rows, h'.cols.trans h.cols, h'.formulas.trans h.formulas,
    fun a cell hcell => (h'.literals a cell hcell).trans (h.literals a cell hcell)⟩

theorem Frame.refl (s : Sheet) : s.Frame s where
  toSameInputs := .refl s
  listeners := rfl
  nextListener := rfl
  stored _ := Iff.rfl
  source a cell cell' h h' := by
    rw [h] at h'
    cases h'
    exact ⟨rfl, rfl⟩

theorem Frame.exists_before {s t : Sheet} (h : s.Frame t) {a : Address} {cell' : Cell}
    (hcell' : t.cells[a]? = some cell') : ∃ cell, s.cells[a]? = some cell := by
  have hmem : a ∈ t.cells := Std.ExtTreeMap.mem_iff_isSome_getElem?.2 (by rw [hcell']; rfl)
  exact Option.isSome_iff_exists.1 (Std.ExtTreeMap.mem_iff_isSome_getElem?.1 ((h.stored a).1 hmem))

theorem Frame.trans {s t u : Sheet} (h : s.Frame t) (h' : t.Frame u) : s.Frame u where
  toSameInputs := h.toSameInputs.trans h'.toSameInputs
  listeners := h'.listeners.trans h.listeners
  nextListener := h'.nextListener.trans h.nextListener
  stored a := (h'.stored a).trans (h.stored a)
  source a cell cell'' hcell hcell'' := by
    obtain ⟨cell', hcell'⟩ := h'.exists_before hcell''
    obtain ⟨hformula, hkind⟩ := h.source a cell cell' hcell hcell'
    obtain ⟨hformula', hkind'⟩ := h'.source a cell' cell'' hcell' hcell''
    exact ⟨hformula'.trans hformula, hkind'.trans hkind⟩

theorem getElem?_of_setResult (s : Sheet) (a : Address) (value : CellValue) (b : Address) :
    (s.setResult a value).sheet.cells[b]? = s.cells[b]? ∨
      ∃ before : Cell, s.cells[b]? = some before ∧ before.isFormula = true ∧
        (s.setResult a value).sheet.cells[b]? = some (before.store value) := by
  rw [getElem?_setResult]
  split
  · cases hbefore : s.cells[b]? with
    | none => exact .inl rfl
    | some before =>
      by_cases hformula : before.isFormula = true
      · exact .inr ⟨before, rfl, hformula, by rw [Option.map_some, if_pos hformula]⟩
      · exact .inl (by rw [Option.map_some, if_neg hformula])
  · exact .inl rfl

theorem frame_setResult (s : Sheet) (a : Address) (value : CellValue) :
    s.Frame (s.setResult a value).sheet := by
  have hcells := getElem?_of_setResult s a value
  rcases s.setResult_cases a value with heq | ⟨changed, -, -, heq⟩
  · rw [heq]
    exact .refl s
  rw [heq] at hcells ⊢
  refine ⟨⟨rfl, rfl, rfl, fun b cell hcell => ?_⟩, rfl, rfl, fun b => ?_, fun b cell cell' hcell hcell' => ?_⟩
  · rcases hcells b with hsame | ⟨before, hbefore, hformula, hafter⟩
    · rw [hsame]
    · -- a formula stands there before and after, so no cell without one
      rw [hbefore, hafter]
      constructor
      · rintro ⟨⟩
        cases hformula.symm.trans hcell
      · rintro ⟨⟩
        cases hformula.symm.trans hcell
  · rw [Std.ExtTreeMap.mem_iff_isSome_getElem?, Std.ExtTreeMap.mem_iff_isSome_getElem?]
    rcases hcells b with hsame | ⟨before, hbefore, -, hafter⟩
    · rw [hsame]
    · rw [hbefore, hafter]
      exact Iff.rfl
  · rcases hcells b with hsame | ⟨before, hbefore, -, hafter⟩
    · rw [hsame, hcell] at hcell'
      cases hcell'
      exact ⟨rfl, rfl⟩
    · rw [hbefore] at hcell
      rw [hafter] at hcell'
      cases hcell
      cases hcell'
      exact ⟨rfl, rfl⟩

theorem frame_recalculateCell (s : Sheet) (clock : Clock) (a : Address) :
    s.Frame (s.recalculateCell clock a).1 := by
  unfold Sheet.recalculateCell
  split
  · exact frame_setResult s a _
  · exact .refl s

theorem frame_setResults (s : Sheet) (rs : List (Address × CellValue)) : s.Frame (s.setResults rs) := by
  induction rs generalizing s with
  | nil => exact .refl s
  | cons r rs ih =>
    obtain ⟨a, value⟩ := r
    rw [setResults_cons]
    exact (frame_setResult s a value).trans (ih _)

/-! ## Numbers of cells -/

def count (s : Sheet) (p : Cell → Bool) : Nat :=
  (s.cells.toList.filter fun (_, cell) => p cell).length

/-- Whether a recalculation evaluates the formula of a cell. -/
def isCovered (options : RecalculationOptions) (cell : Cell) : Bool :=
  cell.formula.any fun text => !isSkipped options text

theorem Indexed.formulas_eq {s : Sheet} (hs : s.Indexed) :
    s.formulas = s.cells.filterMap fun _ cell => cell.formula := by
  refine Std.ExtTreeMap.ext_getElem? fun a => ?_
  rw [hs.formulas a, Std.ExtTreeMap.getElem?_filterMap']

theorem Indexed.length_filter_formulas {s : Sheet} (hs : s.Indexed) (p : String → Bool) :
    (s.formulas.toList.filter fun formula => p formula.2).length =
      s.count fun cell => cell.formula.any p := by
  rw [hs.formulas_eq, Std.ExtTreeMap.toList_filterMap, count]
  generalize s.cells.toList = stored
  induction stored with
  | nil => rfl
  | cons c stored ih =>
    obtain ⟨a, cell⟩ := c
    cases hformula : cell.formula with
    | none => simpa [hformula] using ih
    | some text => cases hp : p text <;> simpa [hformula, hp] using ih

/-- A recalculation evaluates all formulas, or all but the volatile ones. -/
theorem length_filter_covered (options : RecalculationOptions) (formulas : List (Address × String)) :
    (formulas.filter fun formula => !isSkipped options formula.2).length =
      if options.includeVolatile then formulas.length
      else formulas.length - (formulas.filter fun formula => isVolatile formula.2).length := by
  cases hoptions : options.includeVolatile with
  | true => simp [isSkipped, hoptions]
  | false =>
    have hsplit := List.length_eq_length_filter_add (l := formulas) fun formula => isVolatile formula.2
    simp only [isSkipped, hoptions, Bool.not_false, Bool.true_and, Bool.false_eq_true, if_false]
    omega

variable {s : Sheet} {options : RecalculationOptions} {clock : Clock}

theorem Frame.isCovered_eq {t : Sheet} (h : s.Frame t) {a : Address} {cell cell' : Cell}
    (hcell : s.cells[a]? = some cell) (hcell' : t.cells[a]? = some cell') :
    isCovered options cell' = isCovered options cell := by
  rw [isCovered, isCovered, (h.source a cell cell' hcell hcell').1]

theorem Indexed.getElem?_of_mem_results (hs : s.Indexed) {a : Address} {value : CellValue}
    (h : (a, value) ∈ s.results options clock) :
    ∃ cell : Cell, s.cells[a]? = some cell ∧ isCovered options cell = true ∧
      (s.recalculate options clock).1.cells[a]? = some (cell.store value) := by
  obtain ⟨cell, text, hcell, hformula, hcovered, hstored⟩ := hs.exists_calculated h
  exact ⟨cell, hcell, by simp [isCovered, hformula, hcovered], hstored⟩

theorem Indexed.exists_result (hs : s.Indexed) {a : Address} {cell : Cell}
    (hcell : s.cells[a]? = some cell) (hcovered : isCovered options cell = true) (clock : Clock) :
    ∃ value, (a, value) ∈ s.results options clock ∧
      (s.recalculate options clock).1.cells[a]? = some (cell.store value) := by
  obtain ⟨text, hformula, hcovered⟩ := (Option.any_eq_true _ _).1 hcovered
  have htext : s.formulas[a]? = some text := (hs.formulas_of_cell hcell).trans hformula
  obtain ⟨value, hvalue⟩ := exists_mem_results options htext (by simpa using hcovered) clock
  obtain ⟨before, hbefore, -, hstored⟩ := hs.getElem?_of_mem_results hvalue
  rw [hcell] at hbefore
  cases hbefore
  exact ⟨value, hvalue, hstored⟩

theorem Indexed.getElem?_of_not_isCovered (hs : s.Indexed) {a : Address} {cell : Cell}
    (hcell : s.cells[a]? = some cell) (hcovered : isCovered options cell = false) (clock : Clock) :
    (s.recalculate options clock).1.cells[a]? = some cell := by
  rw [getElem?_recalculate_of_isSkipped (fun text htext => ?_) clock, hcell]
  rw [hs.formulas_of_cell hcell] at htext
  simpa using (Option.any_eq_false _ _).1 hcovered text htext

/-- The results that are errors are the errors that the covered cells store
afterwards. -/
theorem Indexed.length_filter_isError (hs : s.Indexed) (options : RecalculationOptions) (clock : Clock) :
    ((s.results options clock).filter fun result => isError result.2).length =
      (s.recalculate options clock).1.count fun cell => isCovered options cell && cell.stored.any isError := by
  have hframe : s.Frame (s.recalculate options clock).1 := frame_setResults s _
  -- both lists have each address once, and the same addresses
  have hresults := (nodup_results s options clock).sublist
    ((List.filter_sublist (p := fun result => isError result.2)).map Prod.fst)
  have hcells := (nodup_toList_keys (s.recalculate options clock).1.cells).sublist
    ((List.filter_sublist (p := fun stored => isCovered options stored.2 && stored.2.stored.any isError)).map
      Prod.fst)
  have hperm := (List.perm_ext_iff_of_nodup hresults hcells).2 fun a => ?_
  · simpa [count] using hperm.length_eq
  · simp only [List.mem_map, List.mem_filter, Bool.and_eq_true]
    constructor
    · rintro ⟨⟨b, value⟩, ⟨hvalue, herror⟩, rfl⟩
      obtain ⟨cell, -, hcovered, hstored⟩ := hs.getElem?_of_mem_results hvalue
      exact ⟨(b, cell.store value), ⟨Std.ExtTreeMap.mem_toList_iff_getElem?_eq_some.2 hstored, hcovered,
        herror⟩, rfl⟩
    · rintro ⟨⟨b, cell'⟩, ⟨hmem, hcovered, herror⟩, rfl⟩
      have hcell' := Std.ExtTreeMap.mem_toList_iff_getElem?_eq_some.1 hmem
      obtain ⟨cell, hcell⟩ := hframe.exists_before hcell'
      rw [hframe.isCovered_eq hcell hcell'] at hcovered
      obtain ⟨value, hvalue, hstored⟩ := hs.exists_result hcell hcovered clock
      rw [hcell'] at hstored
      cases hstored
      exact ⟨(b, value), ⟨hvalue, herror⟩, rfl⟩

/-- A recalculation touches results only, and its numbers add up. The size, the
stored addresses, the index, the formulas and kinds of cells, the cells without
a formula and the listeners are what they were, and no listener is called. The
numbers are those of the formula cells, of the volatile ones, of the covered
ones, and of the covered ones that store an error afterwards. A covered cell
stores a result, and every other cell is the same. -/
theorem recalculate_frame (hs : s.Reachable) (options : RecalculationOptions) (clock : Clock) :
    s.Frame (s.recalculate options clock).1 ∧
    ((Operation.recalculate options).run clock s).calls = [] ∧
    (s.recalculate options clock).2.formulas = s.count Cell.isFormula ∧
    ((s.recalculate options clock).2.volatile = s.count fun cell => cell.formula.any isVolatile) ∧
    ((s.recalculate options clock).2.calculated =
      if options.includeVolatile then (s.recalculate options clock).2.formulas
      else (s.recalculate options clock).2.formulas - (s.recalculate options clock).2.volatile) ∧
    ((s.recalculate options clock).2.errors =
      (s.recalculate options clock).1.count fun cell => isCovered options cell && cell.stored.any isError) ∧
    ∀ (a : Address) (cell : Cell), s.cells[a]? = some cell →
      if isCovered options cell then
        ∃ value, (s.recalculate options clock).1.cells[a]? = some (cell.store value)
      else (s.recalculate options clock).1.cells[a]? = some cell := by
  have hindexed := hs.indexed
  refine ⟨frame_setResults s _, rfl, ?_, ?_, ?_, hindexed.length_filter_isError options clock, ?_⟩
  · have hall := hindexed.length_filter_formulas fun _ => true
    rw [List.filter_true, Std.ExtTreeMap.length_toList] at hall
    rw [formulas_recalculate, hall]
    congr 1
  · rw [volatile_recalculate, hindexed.length_filter_formulas]
  · rw [calculated_recalculate, length_filter_covered, Std.ExtTreeMap.length_toList, formulas_recalculate,
      volatile_recalculate]
  · intro a cell hcell
    split
    · rename_i hcovered
      obtain ⟨value, -, hstored⟩ := hindexed.exists_result hcell hcovered clock
      exact ⟨value, hstored⟩
    · rename_i hcovered
      exact hindexed.getElem?_of_not_isCovered hcell (Bool.not_eq_true _ ▸ hcovered) clock

/-- A sheet with a volatile formula, one without a value, one that is its own
operand, and a text. -/
def mixed : Sheet :=
  let s := (Operation.run .epoch (ofBounds 2 2) (.setInput ⟨0, 0⟩ "=NOW()")).sheet
  let s := (Operation.run .epoch s (.setInput ⟨0, 1⟩ "=NOPE()")).sheet
  let s := (Operation.run .epoch s (.setInput ⟨1, 0⟩ "=A2")).sheet
  (Operation.run .epoch s (.setCell ⟨1, 1⟩ (.text "=1") none)).sheet

theorem reachable_mixed : mixed.Reachable :=
  ((((Reachable.ofBounds 2 2).run _ _).run _ _).run _ _).run _ _

theorem recalculate_frame_mixed :
    mixed.Frame (mixed.recalculate ⟨Formula.Options.default, false⟩ .epoch).1 ∧
    (mixed.recalculate ⟨Formula.Options.default, false⟩ .epoch).2.formulas = 3 ∧
    (mixed.recalculate ⟨Formula.Options.default, false⟩ .epoch).2.volatile = 1 ∧
    (mixed.recalculate ⟨Formula.Options.default, false⟩ .epoch).2.calculated = 2 ∧
    (mixed.recalculate ⟨Formula.Options.default, false⟩ .epoch).1.cells[(⟨0, 0⟩ : Address)]? =
      some ⟨none, some "=NOW()", .formula, none⟩ := by
  obtain ⟨hframe, -, hformulas, hvolatile, hcalculated, -, hcells⟩ :=
    recalculate_frame reachable_mixed ⟨Formula.Options.default, false⟩ .epoch
  have hthree : mixed.count Cell.isFormula = 3 := by decide
  have hone : (mixed.count fun cell => cell.formula.any isVolatile) = 1 := by decide
  refine ⟨hframe, hformulas.trans hthree, hvolatile.trans hone, ?_, ?_⟩
  · rw [hcalculated, hformulas, hvolatile, hthree, hone]
    rfl
  · have hcell : mixed.cells[(⟨0, 0⟩ : Address)]? = some ⟨none, some "=NOW()", .formula, none⟩ := by rfl
    exact hcells ⟨0, 0⟩ _ hcell

end Spreadsheet.Sheet

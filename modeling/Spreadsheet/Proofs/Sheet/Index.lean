import Spreadsheet.Proofs.Sheet.Display

/-
  The index of formulas.

  In every sheet that operations lead to the index holds the formulas of the
  cells and nothing else, and every formula is trimmed and starts with the
  formula mark (`Reachable.indexed`). Every edit keeps this; structural edits do
  because they move both maps by one and the same map of addresses. The kind of a
  cell says whether it has a formula, whatever was written over what
  (`formulas_after`).
-/

namespace Spreadsheet

/-! ## The index mirrors the cells -/

/-- Whether a text is the text of a formula: trimmed, with the formula mark in
front. -/
def IsFormulaText (text : String) : Prop :=
  Text.trim text.toList = text.toList ∧ text.toList.head? = some formulaMark

theorem isFormulaText_formulaText (text : String) : IsFormulaText (formulaText text) := by
  have hmark : Text.isBlank formulaMark = false := by decide
  unfold IsFormulaText formulaText
  dsimp only
  cases hcs : Text.trim text.toList with
  | nil => decide
  | cons c cs =>
    dsimp only
    split
    · rename_i hc
      rw [String.toList_ofList, ← hcs, Text.trim_trim, hcs, hc]
      exact ⟨rfl, rfl⟩
    · rw [String.toList_ofList]
      refine ⟨Text.trim_eq_self (by simpa using hmark) (fun d hd => ?_), rfl⟩
      rw [List.getLast?_cons_cons, ← hcs] at hd
      exact Text.getLast?_trim hd

theorem IsFormulaText.exists_cons {text : String} (h : IsFormulaText text) :
    ∃ cs, text.toList = formulaMark :: cs := by
  obtain ⟨c, cs, hcs⟩ := List.exists_cons_of_ne_nil (l := text.toList) (by
    rintro hnil
    have hhead := h.2
    rw [hnil] at hhead
    cases hhead)
  have hhead := h.2
  rw [hcs] at hhead
  cases hhead
  exact ⟨cs, hcs⟩

theorem IsFormulaText.formulaText {text : String} (h : IsFormulaText text) : formulaText text = text := by
  obtain ⟨cs, hcs⟩ := h.exists_cons
  unfold Spreadsheet.formulaText
  dsimp only
  rw [h.1, hcs]
  dsimp only
  rw [if_pos rfl, ← hcs, String.ofList_toList]

theorem IsFormulaText.isFormulaInput {text : String} (h : IsFormulaText text) : Sheet.isFormulaInput text = true := by
  obtain ⟨cs, hcs⟩ := h.exists_cons
  have hblank : Text.isBlank formulaMark = false := by decide
  simp [Sheet.isFormulaInput, hcs, Text.trimStart, hblank]

namespace Sheet

/-- Whether the index holds the formulas of the cells, and nothing else, and
whether all of them are texts of formulas. -/
structure Indexed (s : Sheet) : Prop where
  formulas : ∀ a : Address, s.formulas[a]? = s.cells[a]?.bind Cell.formula
  isFormulaText : ∀ (a : Address) (text : String), s.formulas[a]? = some text → IsFormulaText text

theorem Indexed.exists_cell {s : Sheet} (h : s.Indexed) {a : Address} {text : String}
    (htext : s.formulas[a]? = some text) : ∃ cell, s.cells[a]? = some cell ∧ cell.formula = some text := by
  rw [h.formulas a] at htext
  exact Option.bind_eq_some_iff.1 htext

theorem Indexed.formulas_of_cell {s : Sheet} (h : s.Indexed) {a : Address} {cell : Cell}
    (hcell : s.cells[a]? = some cell) : s.formulas[a]? = cell.formula := by
  rw [h.formulas a, hcell, Option.bind_some]

theorem indexed_ofBounds (rows cols : UInt32) : Indexed (ofBounds rows cols) where
  formulas a := by simp [ofBounds]
  isFormulaText a text h := by simp [ofBounds] at h

theorem Indexed.setCell {s : Sheet} (h : s.Indexed) {a : Address} (hin : s.inBounds a = true)
    (value : CellValue) (formula : Option String) : (s.setCell a value formula).sheet.Indexed := by
  rw [Sheet.setCell, if_pos hin]
  dsimp only
  cases formula with
  | none =>
    refine ⟨fun b => ?_, fun b text hb => ?_⟩
    · simp only [Cell.ofContent, Option.map_none, Std.ExtTreeMap.getElem?_erase,
        Std.ExtTreeMap.getElem?_insert]
      split
      · rfl
      · exact h.formulas b
    · simp only [Cell.ofContent, Option.map_none, Std.ExtTreeMap.getElem?_erase] at hb
      split at hb
      · cases hb
      · exact h.isFormulaText b text hb
  | some text =>
    refine ⟨fun b => ?_, fun b text' hb => ?_⟩
    · simp only [Cell.ofContent, Option.map_some, Std.ExtTreeMap.getElem?_insert]
      split
      · rfl
      · exact h.formulas b
    · simp only [Cell.ofContent, Option.map_some, Std.ExtTreeMap.getElem?_insert] at hb
      split at hb
      · cases hb
        exact isFormulaText_formulaText text
      · exact h.isFormulaText b text' hb

theorem Indexed.store {s : Sheet} (h : s.Indexed) {a : Address} {cell : Cell}
    (hcell : s.cells[a]? = some cell) (value : CellValue) :
    Indexed { s with cells := s.cells.insert a (cell.store value) } := by
  refine ⟨fun b => ?_, h.isFormulaText⟩
  rw [h.formulas b, Std.ExtTreeMap.getElem?_insert]
  split
  · rename_i hab
    have hab : a = b := Std.LawfulEqOrd.eq_of_compare hab
    rw [← hab, hcell]
    rfl
  · rfl

theorem Indexed.clear {s : Sheet} (h : s.Indexed) (first last : Address) :
    (s.clear first last).1.Indexed := by
  refine ⟨fun b => ?_, fun b text hb => ?_⟩
  · simp only [Sheet.clear, Std.ExtTreeMap.getElem?_filter', Std.ExtTreeMap.getElem?_map, h.formulas b]
    cases s.cells[b]? with
    | none => rfl
    | some cell => cases between first last b <;> cases hf : cell.formula <;> simp [hf, Cell.empty]
  · simp only [Sheet.clear, Std.ExtTreeMap.getElem?_filter'] at hb
    exact h.isFormulaText b text (Option.eq_some_of_filter_eq_some hb)

theorem Indexed.moved {s : Sheet} (h : s.Indexed) {f : Address → Option Address}
    (hf : Grid.Injective f) : (s.moved f).Indexed := by
  refine ⟨fun b => ?_, fun b text hb => ?_⟩
  · by_cases hb : ∃ a, f a = some b
    · obtain ⟨a, ha⟩ := hb
      simp only [Sheet.moved, Grid.getElem?_moved hf _ ha, h.formulas a]
    · have hnone : ∀ a, f a ≠ some b := fun a ha => hb ⟨a, ha⟩
      simp only [Sheet.moved, Grid.getElem?_moved_of_forall_ne _ hnone]
      rfl
  · obtain ⟨a, -, ha⟩ := Grid.exists_of_getElem?_moved hf hb
    exact h.isFormulaText a text ha

/-- Every edit keeps the index in step with the cells. -/
theorem stable_indexed : Stable Indexed where
  setCell value formula h hin := h.setCell hin value formula
  setResult value h hcell _ := h.store hcell value
  clear first last h := h.clear first last
  moves := by
    intro s t h ht
    obtain ⟨f, rows, cols, hf, rfl⟩ := ht
    exact ⟨(h.moved hf).formulas, (h.moved hf).isFormulaText⟩
  listeners _ _ h := ⟨h.formulas, h.isFormulaText⟩

theorem Reachable.indexed {s : Sheet} (h : s.Reachable) : s.Indexed :=
  stable_indexed.reachable indexed_ofBounds h

/-! ## Formula cells -/

theorem Reachable.kind_eq_formula {s : Sheet} (h : s.Reachable) {a : Address} {cell : Cell}
    (hcell : s.cells[a]? = some cell) : cell.kind = .formula ↔ cell.isFormula = true :=
  (h.coherent hcell).kind_eq_formula_iff

/-- Whatever is done to a sheet, its index has the formulas of its stored cells
and no others, all of them are texts of formulas, and the cells with one are
those of the formula kind. -/
theorem formulas_after {s : Sheet} (hs : s.Initial) (steps : List (Clock × Operation)) (a : Address) :
    (∀ text, (s.after steps).formulas[a]? = some text ↔
      ∃ cell, (s.after steps).cells[a]? = some cell ∧ cell.formula = some text) ∧
    (∀ text, (s.after steps).formulas[a]? = some text → IsFormulaText text) ∧
    ∀ cell, (s.after steps).cells[a]? = some cell → (cell.kind = .formula ↔ cell.isFormula = true) := by
  have hafter : (s.after steps).Reachable := hs.reachable.after steps
  refine ⟨fun text => ?_, hafter.indexed.isFormulaText a, fun cell hcell => hafter.kind_eq_formula hcell⟩
  rw [hafter.indexed.formulas a]
  exact Option.bind_eq_some_iff

/-- Two formulas are entered and move down one row, and a number is written over
the second. -/
def overwriting : List (Clock × Operation) :=
  [(.epoch, .setInput ⟨0, 0⟩ " =A1+1 "), (.epoch, .setInput ⟨1, 1⟩ "=1"), (.epoch, .insertRows 0 1),
    (.epoch, .setInput ⟨2, 1⟩ "1")]

theorem formulas_after_overwriting :
    ∃ cell, ((ofBounds 2 2).after overwriting).cells[(⟨1, 0⟩ : Address)]? = some cell ∧
      cell.formula = some "=A1+1" ∧ cell.kind = .formula := by
  obtain ⟨hmirror, -, hkind⟩ := formulas_after (.ofBounds 2 2) overwriting ⟨1, 0⟩
  have hindex : ((ofBounds 2 2).after overwriting).formulas[(⟨1, 0⟩ : Address)]? = some "=A1+1" := by
    decide +kernel
  obtain ⟨cell, hcell, hformula⟩ := (hmirror "=A1+1").1 hindex
  refine ⟨cell, hcell, hformula, (hkind cell hcell).2 ?_⟩
  rw [Cell.isFormula, hformula]
  rfl

end Sheet

end Spreadsheet

import Spreadsheet.Proofs.Sheet.Steps

/-
  Display texts.

  A cell remembers its display text, and it must never be an old one. What keeps
  it right is that every write either forgets it or stores the text of the value
  that is stored with it: a cell always shows what its formula and its value say,
  and is of the kind they say (`Coherent`). Every edit of a cell keeps this, so it
  holds after any number of them (`display_after`), and of the cells of every
  sheet that operations lead to (`Sheet.Reachable.coherent`).
-/

namespace Spreadsheet

theorem CellValue.kind_ne_formula (value : CellValue) : value.kind ≠ .formula := by
  cases value <;> simp [CellValue.kind]

namespace Cell

/-- Whether a cell shows what its formula and its value say, and is of the kind
they say. -/
structure Coherent (c : Cell) : Prop where
  display : c.display = c.computedDisplay
  kind : c.kind = if c.isFormula then .formula else c.value.kind

variable {c : Cell}

theorem Coherent.kind_eq_formula_iff (h : c.Coherent) : c.kind = .formula ↔ c.isFormula = true := by
  rw [h.kind]
  split
  · exact iff_of_true rfl ‹_›
  · exact iff_of_false c.value.kind_ne_formula ‹_›

/-! ## One edit -/

/-- An empty value is not stored, but a cell without a value is of its kind. -/
theorem coherent_ofContent (value : CellValue) (formula : Option String) : (ofContent value formula).Coherent where
  display := rfl
  kind := by
    cases formula with
    | some text => rfl
    | none => cases value <;> rfl

theorem Coherent.store (h : c.Coherent) (hformula : c.isFormula = true) (value : CellValue) :
    (c.store value).Coherent where
  display := rfl
  kind := by
    have hkind := h.kind_eq_formula_iff.2 hformula
    show c.kind = if c.isFormula then _ else _
    rw [if_pos hformula, hkind]

theorem display_refresh (c : Cell) : c.refresh.display = c.display := rfl

theorem Coherent.refresh (h : c.Coherent) : c.refresh.Coherent where
  display := h.display
  kind := h.kind

theorem stable_coherent : Stable Coherent where
  empty := coherent_ofContent .empty none
  ofContent := coherent_ofContent
  store _ value hformula h := h.store hformula value

/-! ## Any number of edits -/

/-- The edits of a cell. -/
inductive Edit where
  | assign (value : CellValue) (formula : Option String)
  | clear
  | refresh
  | store (result : CellValue)

/-- The cell after an edit. A result is for a formula cell, and any other one stays
as it is. -/
def edited (c : Cell) : Edit → Cell
  | .assign value formula => ofContent value formula
  | .clear => ofContent .empty none
  | .refresh => c.refresh
  | .store result => if c.isFormula then c.store result else c

/-- The cells that are made without an edit. -/
inductive Initial : Cell → Prop
  | empty : Initial empty
  | ofValue (value : CellValue) : Initial (ofContent value none)
  | ofFormula (formula : String) : Initial (ofContent .empty (some formula))

def after (c : Cell) (edits : List Edit) : Cell := edits.foldl edited c

theorem Initial.coherent (h : c.Initial) : c.Coherent := by
  cases h with
  | empty => exact stable_coherent.empty
  | ofValue value => exact coherent_ofContent value none
  | ofFormula formula => exact coherent_ofContent .empty (some formula)

theorem Coherent.edited (h : c.Coherent) (e : Edit) : (c.edited e).Coherent := by
  cases e with
  | assign value formula => exact coherent_ofContent value formula
  | clear => exact coherent_ofContent .empty none
  | refresh => exact h.refresh
  | store result =>
    show (if c.isFormula then c.store result else c).Coherent
    split
    · exact h.store ‹_› result
    · exact h

theorem Coherent.after (h : c.Coherent) (edits : List Edit) : (c.after edits).Coherent := by
  induction edits generalizing c with
  | nil => exact h
  | cons e edits ih => exact ih (h.edited e)

/-- Whatever is done to a cell, it shows what it would show without a remembered
text, remembering the text changes nothing else, and it is of the formula kind if
it has a formula and otherwise of the kind of its value. -/
theorem display_after (hc : c.Initial) (edits : List Edit) :
    (c.after edits).display = { c.after edits with shown := none }.display ∧
    ((c.after edits).refresh.display = (c.after edits).display ∧
      (c.after edits).refresh.stored = (c.after edits).stored ∧
      (c.after edits).refresh.formula = (c.after edits).formula ∧
      (c.after edits).refresh.kind = (c.after edits).kind) ∧
    (c.after edits).kind = if (c.after edits).isFormula then .formula else (c.after edits).value.kind := by
  have h := hc.coherent.after edits
  exact ⟨h.display, ⟨display_refresh _, rfl, rfl, rfl⟩, h.kind⟩

/-- A formula whose result is an error is written over, and then another result of
it comes too late. -/
def overtaken : List Edit :=
  [.refresh, .store (.error "boom"), .assign (.boolean true) none, .refresh, .store .empty]

theorem display_after_overtaken :
    (ofContent .empty (some "A1+1")).Initial ∧ ((ofContent .empty (some "A1+1")).after overtaken).display = "TRUE" ∧
      ((ofContent .empty (some "A1+1")).after overtaken).kind = .boolean := by
  have hfresh : (ofContent .empty (some "A1+1")).Initial := .ofFormula "A1+1"
  obtain ⟨hdisplay, -, hkind⟩ := display_after hfresh overtaken
  exact ⟨hfresh, hdisplay.trans rfl, hkind.trans rfl⟩

end Cell

/-! ## The cells of a sheet -/

/-- Every stored cell of a sheet that operations lead to shows what its formula and
its value say. -/
theorem Sheet.Reachable.coherent {s : Sheet} (h : s.Reachable) {a : Address} {cell : Cell}
    (hcell : s.cells[a]? = some cell) : cell.Coherent :=
  (stable_stores Cell.stable_coherent).reachable (stores_ofBounds _) h a cell hcell

end Spreadsheet

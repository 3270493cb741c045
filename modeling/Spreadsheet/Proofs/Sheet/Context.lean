import Spreadsheet.Proofs.Formula.Cell
import Spreadsheet.Proofs.Sheet.Frame

/-
  What formulas see of a sheet.

  A formula in the grid is seen as its text, under every name of its cell, and
  nothing else is seen as a formula (`resolve_formulas_only`): the display text
  of any other cell is marked where it would read as one. The results of
  formulas are not seen at all, so two sheets with the same inputs look the same
  to every formula (`SameInputs.context_eq`).
-/

namespace Spreadsheet.Sheet

open Formula (Context Options Scope)

variable {s t : Sheet}

/-! ## Formulas -/

/-- A display text is never seen as a formula. -/
theorem head?_markedText (display : String) :
    (Text.trim (markedText display).toList).head? ≠ some formulaMark := by
  intro h
  have h := Text.head?_trimStart h
  have hblank : Text.isBlank Formula.textMark = false := by decide
  unfold markedText at h
  cases hdisplay : Text.trimStart display.toList with
  | nil =>
    rw [hdisplay] at h
    dsimp only at h
    rw [hdisplay] at h
    cases h
  | cons c cs =>
    rw [hdisplay] at h
    dsimp only at h
    split at h
    · simp only [String.toList_ofList, Text.trimStart, List.dropWhile_cons, hblank, Bool.false_eq_true,
        if_false, List.head?_cons, Option.some.injEq] at h
      cases h
    · rename_i hc
      rw [hdisplay, List.head?_cons, Option.some.injEq] at h
      simp [h] at hc

theorem resolve_of_formula {address : String} {a : Address} (hname : Address.ofName address.toList = .ok a)
    (hin : s.inBounds a = true) {text : String} (htext : s.formulas[a]? = some text) :
    s.resolve address = some text := by
  simp only [Sheet.resolve, hname, hin, htext, if_true]

theorem exists_of_resolve {address text : String} (h : s.resolve address = some text)
    (hmark : (Text.trim text.toList).head? = some formulaMark) :
    ∃ a, Address.ofName address.toList = .ok a ∧ s.inBounds a = true ∧ s.formulas[a]? = some text := by
  unfold Sheet.resolve at h
  cases hname : Address.ofName address.toList with
  | error e =>
    rw [hname] at h
    cases h
  | ok a =>
    rw [hname] at h
    dsimp only at h
    by_cases hin : s.inBounds a = true
    · rw [if_pos hin] at h
      refine ⟨a, rfl, hin, ?_⟩
      cases htext : s.formulas[a]? with
      | some text' => rwa [htext] at h
      | none =>
        rw [htext] at h
        obtain ⟨cell, -, rfl⟩ := Option.map_eq_some_iff.1 h
        exact absurd hmark (head?_markedText cell.display)
    · rw [if_neg hin] at h
      cases h

theorem Indexed.formulaAt?_context (hs : s.Indexed) {name : List Char} {a : Address}
    (hname : Address.ofName name = .ok a) (hin : s.inBounds a = true) {text : String}
    (htext : s.formulas[a]? = some text) (options : Options) (clock : Clock) :
    (s.context options clock).formulaAt? (String.ofList name) = some text.toList := by
  obtain ⟨htrim, hmark⟩ := hs.isFormulaText a text htext
  have hresolve : s.resolve (String.ofList name) = some text :=
    resolve_of_formula (by rwa [String.toList_ofList]) hin htext
  simp only [Context.formulaAt?, Sheet.context, hresolve, htrim, hmark, Option.bind_some, if_true]

theorem Indexed.exists_of_formulaAt? (hs : s.Indexed) {options : Options} {clock : Clock}
    {address : String} {formula : List Char}
    (h : (s.context options clock).formulaAt? address = some formula) :
    ∃ (a : Address) (text : String), Address.ofName address.toList = .ok a ∧ s.inBounds a = true ∧
      s.formulas[a]? = some text ∧ formula = text.toList := by
  obtain ⟨text, hresolve, hmark, rfl⟩ := Context.exists_of_formulaAt? h
  obtain ⟨a, hname, hin, htext⟩ := exists_of_resolve hresolve hmark
  exact ⟨a, text, hname, hin, htext, (hs.isFormulaText a text htext).1⟩

/-- Only the formulas of cells are evaluated. Under any spelling of an address,
what is seen of the cell reads as a formula exactly if it is the formula of a
formula cell in the grid that the address names. A cell without a formula has a
value that no evaluation has a part in, whatever it holds. -/
theorem resolve_formulas_only (hs : s.Reachable) (address : String) :
    (∀ text, s.resolve address = some text ∧ (Text.trim text.toList).head? = some formulaMark ↔
      ∃ a cell, Address.ofName address.toList = .ok a ∧ s.inBounds a = true ∧
        s.formulas[a]? = some text ∧ s.cells[a]? = some cell ∧ cell.formula = some text ∧
        cell.kind = .formula) ∧
    ((∀ a, Address.ofName address.toList = .ok a → s.inBounds a = true → (s.cellAt a).isFormula = false) →
      ∀ options clock, ∃ v, ∀ expr formula m,
        (⟨s.context options clock, expr, formula⟩ : Scope).cell address m = .ok (m.cache[address]?.getD v) m) := by
  have hindexed := hs.indexed
  refine ⟨fun text => ⟨?_, ?_⟩, fun hliteral options clock => ?_⟩
  · rintro ⟨hresolve, hmark⟩
    obtain ⟨a, hname, hin, htext⟩ := exists_of_resolve hresolve hmark
    obtain ⟨cell, hcell, hformula⟩ := hindexed.exists_cell htext
    exact ⟨a, cell, hname, hin, htext, hcell, hformula,
      (hs.kind_eq_formula hcell).2 (isFormula_of_formula hformula)⟩
  · rintro ⟨a, cell, hname, hin, htext, -, -, -⟩
    obtain ⟨htrim, hmark⟩ := hindexed.isFormulaText a text htext
    exact ⟨resolve_of_formula hname hin htext, by rw [htrim, hmark]⟩
  · have hnone : (s.context options clock).formulaAt? address = none := by
      rw [Option.eq_none_iff_forall_not_mem]
      intro formula hformula
      obtain ⟨a, text, hname, hin, htext, -⟩ := hindexed.exists_of_formulaAt? hformula
      obtain ⟨cell, hcell, hformula⟩ := hindexed.exists_cell htext
      have hliteral := hliteral a hname hin
      rw [cellAt, hcell, Option.getD_some, isFormula_of_formula hformula] at hliteral
      cases hliteral
    refine ⟨(s.context options clock).literalAt address, fun expr formula m => ?_⟩
    rw [Scope.cell_apply]
    cases m.cache[address]? with
    | some v => rfl
    | none => simp only [hnone, Option.getD_none]

theorem resolve_formulas_only_mixed :
    (∃ a cell, Address.ofName "a01".toList = .ok a ∧ mixed.inBounds a = true ∧
      mixed.formulas[a]? = some "=NOW()" ∧ mixed.cells[a]? = some cell ∧ cell.formula = some "=NOW()" ∧
      cell.kind = .formula) ∧
    ∃ v, ∀ expr formula m, (⟨mixed.context Options.default .epoch, expr, formula⟩ : Scope).cell "B2" m =
      .ok (m.cache["B2"]?.getD v) m := by
  have hname : Address.ofName "B2".toList = .ok ⟨1, 1⟩ := by rfl
  constructor
  · refine ((resolve_formulas_only reachable_mixed "a01").1 "=NOW()").1 ⟨?_, by decide⟩
    rfl
  · refine (resolve_formulas_only reachable_mixed "B2").2 (fun a ha _ => ?_) Options.default .epoch
    rw [hname] at ha
    cases ha
    rfl

/-! ## Results of formulas -/

theorem SameInputs.context_eq (h : s.SameInputs t) (hs : s.Indexed) (ht : t.Indexed)
    (options : Options) (clock : Clock) : t.context options clock = s.context options clock := by
  have hcells : ∀ a : Address, s.formulas[a]? = none → t.cells[a]? = s.cells[a]? := by
    intro a ha
    refine Option.ext fun cell => ⟨fun hcell => ?_, fun hcell => ?_⟩
    · rw [← h.formulas, ht.formulas_of_cell hcell] at ha
      exact (h.literals a cell (by rw [Cell.isFormula, ha]; rfl)).1 hcell
    · rw [hs.formulas_of_cell hcell] at ha
      exact (h.literals a cell (by rw [Cell.isFormula, ha]; rfl)).2 hcell
  have hresolve : t.resolve = s.resolve := by
    funext address
    unfold Sheet.resolve
    cases Address.ofName address.toList with
    | error e => rfl
    | ok a =>
      dsimp only
      rw [show t.inBounds a = s.inBounds a by rw [inBounds, inBounds, h.rows, h.cols], h.formulas]
      cases hformula : s.formulas[a]? with
      | some text => rfl
      | none => simp only [hcells a hformula]
  unfold Sheet.context
  rw [hresolve, h.rows, h.cols]

/-- Results of formulas are not seen by formulas. -/
theorem Indexed.context_setResults (hs : s.Indexed) (rs : List (Address × CellValue))
    (options : Options) (clock : Clock) :
    (s.setResults rs).context options clock = s.context options clock :=
  (frame_setResults s rs).toSameInputs.context_eq hs (stable_indexed.toSteady.setResults hs rs) options clock

end Spreadsheet.Sheet

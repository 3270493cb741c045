import Spreadsheet.Proofs.Calendar
import Spreadsheet.Proofs.Number.RoundTrip
import Spreadsheet.Proofs.Sheet.Index
import Spreadsheet.Proofs.Sheet.Typing

/-
  What a typed text is shown as.

  The text that a cell shows is one that, typed into a cell, is shown again as it
  is (`Cell.display_ofTyped_display`): a formula is shown as it is kept, and any
  other text as that of a value which its own text stands for. It is blank
  exactly if the text that was typed is.
-/

namespace Spreadsheet

/-! ## Values -/

namespace CellValue

/-- Whether the text of a value is one that, typed, is shown again as it is, and
is no blank one. -/
structure Reread (v : CellValue) : Prop where
  isFormulaInput : Sheet.isFormulaInput v.display = false
  trim_ne_nil : Text.trim v.display.toList ≠ []
  display : (ofInput v.display).display = v.display

theorem trim_ofList (cs : List Char) (h : ∀ c ∈ cs, 43 ≤ c.toNat ∧ c.toNat ≤ 57) :
    Text.trim cs = cs ∧ Sheet.isFormulaInput (String.ofList cs) = false := by
  have hblank : ∀ c ∈ cs, Text.isBlank c = false := fun c hc =>
    Text.isBlank_of_ascii (by have := h c hc; omega) (by have := h c hc; omega)
  rw [Sheet.isFormulaInput, String.toList_ofList]
  refine ⟨Text.trim_eq_self_of_forall hblank, ?_⟩
  rw [Text.trimStart_eq_self fun c hc => hblank c (List.mem_of_mem_head? hc), beq_eq_false_iff_ne]
  intro hmark
  have hle := (h _ (List.mem_of_mem_head? hmark)).2
  exact absurd hle (by decide)

theorem reread_number {x : Float} (hx : x.isFinite = true) : Reread (.number x) := by
  obtain ⟨y, hdenotes, hy, htext⟩ := Number.denotes_cellText hx
  obtain ⟨htrim, hformula⟩ := trim_ofList (Number.cellText x) fun c hc => by
    rcases hdenotes.isDigit_or c hc with hc | rfl | rfl
    · rw [Text.isDigit_iff] at hc
      omega
    · decide
    · decide
  refine ⟨hformula, ?_, ?_⟩
  · rw [display, String.toList_ofList, htrim]
    exact hdenotes.ne_nil
  · have hread : ofInput (String.ofList (Number.cellText x)) = .number y := by
      simp [ofInput, htrim, hdenotes.ne_nil, hdenotes.ofText hy]
    rw [display, hread, display, htext]

theorem reread_boolean (b : Bool) : Reread (.boolean b) := by
  cases b with
  | false => exact ⟨rfl, by decide, rfl⟩
  | true => exact ⟨rfl, by decide, rfl⟩

theorem reread_date (d : Date) : Reread (.date d) := by
  obtain ⟨htrim, hformula⟩ := trim_ofList d.text fun c hc => by
    rcases Date.isDigit_or_of_mem_text hc with hc | rfl | rfl
    · rw [Text.isDigit_iff] at hc
      omega
    · decide
    · decide
  refine ⟨hformula, ?_, ?_⟩
  · rw [display, String.toList_ofList, htrim]
    exact d.text_ne_nil
  · rw [display, d.ofInput_text, display]

theorem reread_ofInput {input : String} (hblank : Text.trim input.toList ≠ [])
    (hformula : Sheet.isFormulaInput input = false) : Reread (ofInput input) := by
  cases hnumber : Number.ofText (Text.trim input.toList) with
  | some x =>
    have hx : x.isFinite = true := (Option.filter_eq_some_iff.1 hnumber).2
    have hread : ofInput input = .number x := by
      simp [ofInput, hblank, hnumber]
    rw [hread]
    exact reread_number hx
  | none =>
    cases hboolean : booleanOfText? (Text.trim input.toList) with
    | some b =>
      have hread : ofInput input = .boolean b := by
        simp [ofInput, hblank, hnumber, hboolean]
      rw [hread]
      exact reread_boolean b
    | none =>
      cases hdate : Date.ofText? (Text.trim input.toList) with
      | some d =>
        have hread : ofInput input = .date d := by
          simp [ofInput, hblank, hnumber, hboolean, hdate]
        rw [hread]
        exact reread_date d
      | none =>
        have hread : ofInput input = .text input := by
          simp [ofInput, hblank, hnumber, hboolean, hdate]
        rw [hread]
        exact ⟨hformula, hblank, by rw [display, hread, display]⟩

end CellValue

/-! ## Cells -/

namespace Cell

variable {text : String}

theorem display_ofTyped_of_formula (h : Sheet.isFormulaInput text = true) :
    (ofTyped text).display = formulaText text := by
  rw [ofTyped, if_pos h]
  rfl

theorem display_ofTyped_of_value (h : Sheet.isFormulaInput text = false) :
    (ofTyped text).display = (CellValue.ofInput text).display := by
  rw [ofTyped, if_neg (by simp [h])]
  cases CellValue.ofInput text <;> rfl

theorem display_ofTyped_display (h : Text.trim text.toList ≠ []) :
    Text.trim (ofTyped text).display.toList ≠ [] ∧
      (ofTyped (ofTyped text).display).display = (ofTyped text).display := by
  cases hformula : Sheet.isFormulaInput text with
  | true =>
    have hkept := isFormulaText_formulaText text
    rw [display_ofTyped_of_formula hformula]
    constructor
    · obtain ⟨cs, hcs⟩ := hkept.exists_cons
      rw [hkept.1, hcs]
      exact List.cons_ne_nil _ _
    · rw [display_ofTyped_of_formula hkept.isFormulaInput, hkept.formulaText]
  | false =>
    have hread := CellValue.reread_ofInput h hformula
    rw [display_ofTyped_of_value hformula]
    exact ⟨hread.trim_ne_nil, (display_ofTyped_of_value hread.isFormulaInput).trans hread.display⟩

theorem isEmpty_ofTyped (h : Text.trim text.toList ≠ []) : (ofTyped text).isEmpty = false := by
  cases hformula : Sheet.isFormulaInput text with
  | true =>
    rw [ofTyped, if_pos hformula]
    rfl
  | false =>
    have hread := CellValue.reread_ofInput h hformula
    rw [ofTyped, if_neg (by simp [hformula])]
    cases hvalue : CellValue.ofInput text with
    | empty =>
      rw [hvalue] at hread
      exact absurd rfl hread.trim_ne_nil
    | text _ | number _ | boolean _ | date _ | error _ => rfl

end Cell

end Spreadsheet

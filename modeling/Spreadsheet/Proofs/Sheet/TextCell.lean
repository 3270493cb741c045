import Spreadsheet.Proofs.Formula.Reference
import Spreadsheet.Proofs.Sheet.Context

/-
  Texts in cells, as a reference reads them.

  A text that starts with a formula mark or a text mark, blanks aside, is handed
  to formulas behind a text mark; any other is handed over as it stands. The
  outer blanks are dropped before a text mark is taken off, so a marked text
  keeps the blanks in front and loses those at its end (`readBack`). A text that
  is not marked keeps both.
-/

namespace Spreadsheet

namespace Formula

theorem numberOf?_trim (cs : List Char) : numberOf? (Text.trim cs) = numberOf? cs := by
  simp only [numberOf?, Text.trim_trim]

theorem Value.ofCellText_eq_text {t : String} (hblank : Text.trim t.toList ≠ [])
    (hnumber : numberOf? t.toList = none) (hboolean : booleanOfText? (Text.trim t.toList) = none) :
    Value.ofCellText t = .text t := by
  simp only [Value.ofCellText, numberOf?_trim, hnumber, hboolean, List.isEmpty_iff, hblank, if_false]

end Formula

namespace Sheet

open Formula (Context Options Value evaluate_referenceTo numberOf? referenceTo textMark)

/-- Whether a text starts, blanks aside, with a formula mark or a text mark. -/
def IsMarked (t : String) : Prop :=
  (Text.trimStart t.toList).head? = some formulaMark ∨ (Text.trimStart t.toList).head? = some textMark

instance (t : String) : Decidable (IsMarked t) := inferInstanceAs (Decidable (_ ∨ _))

/-- A text of a cell as a reference to the cell reads it. -/
def readBack (t : String) : String :=
  if IsMarked t then String.ofList (Text.trimEnd t.toList) else t

/-- A text is read back as it is, unless it is marked and ends with a blank. -/
theorem readBack_eq_self_iff {t : String} :
    readBack t = t ↔ (IsMarked t → t.toList.getLast?.any Text.isBlank = false) := by
  unfold readBack
  rw [← Text.trimEnd_eq_self_iff]
  split
  · rename_i hmarked
    simp only [hmarked, true_implies]
    rw [← String.toList_inj, String.toList_ofList]
  · rename_i hmarked
    simp only [hmarked, false_implies]

theorem markedText_of_isMarked {t : String} (h : IsMarked t) :
    markedText t = String.ofList (textMark :: t.toList) := by
  unfold markedText
  unfold IsMarked at h
  cases hstart : Text.trimStart t.toList with
  | nil => simp [hstart] at h
  | cons c cs =>
    rw [hstart, List.head?_cons, Option.some.injEq, Option.some.injEq] at h
    simp [h]

theorem markedText_of_not_isMarked {t : String} (h : ¬ IsMarked t) : markedText t = t := by
  unfold markedText
  unfold IsMarked at h
  cases hstart : Text.trimStart t.toList with
  | nil => rfl
  | cons c cs =>
    rw [hstart, List.head?_cons, Option.some.injEq, Option.some.injEq] at h
    simp [not_or.1 h]

/-- A text that formulas see through the marking is read as text, whatever it
looks like. -/
theorem literalAt_markedText {ctx : Context} {address t : String}
    (hresolve : ctx.resolve address = some (markedText t)) (hblank : Text.trim t.toList ≠ [])
    (hnumber : numberOf? t.toList = none) (hboolean : booleanOfText? (Text.trim t.toList) = none) :
    ctx.literalAt address = .text (readBack t) := by
  have hmark : Text.isBlank textMark = false := by decide
  unfold Context.literalAt readBack
  rw [hresolve]
  dsimp only
  by_cases hmarked : IsMarked t
  · rw [if_pos hmarked, markedText_of_isMarked hmarked, String.toList_ofList, Text.trim_cons hmark]
    dsimp only
    rw [if_pos rfl]
  · rw [if_neg hmarked, markedText_of_not_isMarked hmarked, Value.ofCellText_eq_text hblank hnumber hboolean]
    cases htrim : Text.trim t.toList with
    | nil => rfl
    | cons c cs =>
      -- it starts as the text does without the blanks in front, so with no text mark
      have hstart : (Text.trimStart t.toList).head? = some c := Text.head?_trimStart (by rw [htrim]; rfl)
      have hc : c ≠ textMark := fun hc => hmarked (.inr (hc ▸ hstart))
      dsimp only
      rw [if_neg hc]

variable {s : Sheet} {a : Address} {t : String}

theorem setCell_none (hin : s.inBounds a = true) (value : CellValue) :
    (s.setCell a value none).sheet.inBounds a = true ∧ (s.setCell a value none).sheet.formulas[a]? = none ∧
      (s.setCell a value none).sheet.cells[a]? = some (Cell.ofContent value none) := by
  rw [Sheet.setCell, if_pos hin]
  exact ⟨hin, by simp [Cell.ofContent], by simp⟩

theorem resolve_textCell (hin : s.inBounds a = true) (hformula : s.formulas[a]? = none)
    (hcell : s.cells[a]? = some (Cell.ofContent (.text t) none)) :
    s.resolve a.label = some (markedText t) := by
  simp only [Sheet.resolve, Address.ofName_label, hin, if_true, hformula, hcell]
  rfl

theorem referenceTo_eq (a : Address) : "=" ++ a.label = String.ofList (referenceTo a) := by
  rw [← String.toList_inj]
  simp [referenceTo, formulaMark, Address.label]

theorem evaluate_textCell (hin : s.inBounds a = true) (hformula : s.formulas[a]? = none)
    (hcell : s.cells[a]? = some (Cell.ofContent (.text t) none)) (hblank : Text.trim t.toList ≠ [])
    (hnumber : numberOf? t.toList = none) (hboolean : booleanOfText? (Text.trim t.toList) = none)
    (clock : Clock) : s.evaluate clock ("=" ++ a.label) = .ok (.text (readBack t)) := by
  have hresolve : (s.context Options.default clock).resolve a.label = some (markedText t) :=
    resolve_textCell hin hformula hcell
  have hnone : (s.context Options.default clock).formulaAt? a.label = none := by
    rw [Option.eq_none_iff_forall_not_mem]
    intro formula hseen
    obtain ⟨text, htext, hhead, -⟩ := Context.exists_of_formulaAt? hseen
    rw [hresolve] at htext
    cases htext
    exact head?_markedText t hhead
  rw [Sheet.evaluate, referenceTo_eq, evaluate_referenceTo hnone,
    literalAt_markedText hresolve hblank hnumber hboolean]

/-- A text that is written into a cell is what a reference to the cell reads, as
it is or, if it is marked, without the blanks at its end. It comes back as it is
exactly if it is not both marked and followed by blanks. -/
theorem evaluate_written_text (hin : s.inBounds a = true) (hblank : Text.trim t.toList ≠ [])
    (hnumber : numberOf? t.toList = none) (hboolean : booleanOfText? (Text.trim t.toList) = none)
    (clock : Clock) :
    (s.setCell a (.text t) none).cell = .ok (Cell.ofContent (.text t) none) ∧
      (s.setCell a (.text t) none).sheet.evaluate clock ("=" ++ a.label) = .ok (.text (readBack t)) ∧
      ((s.setCell a (.text t) none).sheet.evaluate clock ("=" ++ a.label) = .ok (.text t) ↔
        (IsMarked t → t.toList.getLast?.any Text.isBlank = false)) := by
  obtain ⟨hin', hformula, hcell⟩ := setCell_none hin (.text t)
  have hread := evaluate_textCell hin' hformula hcell hblank hnumber hboolean clock
  refine ⟨setCell_of_inBounds hin _ _, hread, ?_⟩
  rw [hread, Except.ok.injEq, Value.text.injEq]
  exact readBack_eq_self_iff

/-- Blanks in front of a marked text are kept. -/
theorem evaluate_written_marked :
    ((ofBounds 4294967295 4294967295).setCell ⟨4294967294, 4294967294⟩ (.text " '=A1") none).sheet.evaluate
      .epoch ("=" ++ (⟨4294967294, 4294967294⟩ : Address).label) = .ok (.text " '=A1") := by
  obtain ⟨-, -, hback⟩ := evaluate_written_text (s := ofBounds 4294967295 4294967295)
    (a := ⟨4294967294, 4294967294⟩) (t := " '=A1") (by decide) (by decide) (by rfl) (by decide) .epoch
  exact hback.2 fun _ => by decide

/-- Blanks after a marked text are lost. -/
theorem evaluate_written_trailing :
    Text.trim "=x ".toList ≠ [] ∧ numberOf? "=x ".toList = none ∧
      booleanOfText? (Text.trim "=x ".toList) = none ∧
      (∃ cell, ((ofBounds 1 1).setCell ⟨0, 0⟩ (.text "=x ") none).cell = .ok cell) ∧
      ((ofBounds 1 1).setCell ⟨0, 0⟩ (.text "=x ") none).sheet.evaluate .epoch
        ("=" ++ (⟨0, 0⟩ : Address).label) ≠ .ok (.text "=x ") := by
  have hblank : Text.trim "=x ".toList ≠ [] := by decide
  have hnumber : numberOf? "=x ".toList = none := by rfl
  have hboolean : booleanOfText? (Text.trim "=x ".toList) = none := by decide
  have hgrid : (ofBounds 1 1).inBounds ⟨0, 0⟩ = true := by decide
  obtain ⟨hin, hformula, hcell⟩ := setCell_none hgrid (.text "=x ")
  refine ⟨hblank, hnumber, hboolean, ⟨_, setCell_of_inBounds hgrid _ _⟩, ?_⟩
  rw [evaluate_textCell hin hformula hcell hblank hnumber hboolean, Ne, Except.ok.injEq, Value.text.injEq,
    readBack_eq_self_iff]
  decide

end Sheet

end Spreadsheet

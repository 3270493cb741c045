import Spreadsheet.Proofs.Formula.Aggregates
import Spreadsheet.Proofs.Sheet.TextCell
import Spreadsheet.Proofs.Text.Padding

/-
  Labels in ranges.

  A write changes what formulas see of one cell. Where the cell was empty and gets
  a text that is no number and no truth value, an aggregate over a range around
  it finds a label in the place of no value, whatever the text starts with. So the
  aggregates of numbers stay what they were, and the count goes up by one
  (`aggregates_of_label`).
-/

namespace Spreadsheet.Sheet

open Formula (Aggregator Context Options Value evaluate_over numberOf? numberOf?_trim)

variable {s : Sheet} {a b : Address} {t : String}

/-! ## What a write changes -/

theorem frame_setCell (s : Sheet) (a : Address) (value : CellValue) (formula : Option String) :
    (s.setCell a value formula).sheet.rows = s.rows ∧ (s.setCell a value formula).sheet.cols = s.cols ∧
      ∀ b, b ≠ a → (s.setCell a value formula).sheet.cells[b]? = s.cells[b]? ∧
        (s.setCell a value formula).sheet.formulas[b]? = s.formulas[b]? := by
  by_cases hin : s.inBounds a = true
  · rw [setCell, if_pos hin]
    refine ⟨rfl, rfl, fun b hb => ?_⟩
    have hother : ¬ compare a b = .eq := fun h => hb (Std.LawfulEqOrd.eq_of_compare h).symm
    dsimp only
    rw [Std.ExtTreeMap.getElem?_insert, if_neg hother]
    refine ⟨rfl, ?_⟩
    split
    · rw [Std.ExtTreeMap.getElem?_insert, if_neg hother]
    · rw [Std.ExtTreeMap.getElem?_erase, if_neg hother]
  · rw [setCell_of_not_inBounds hin]
    exact ⟨rfl, rfl, fun b _ => ⟨rfl, rfl⟩⟩

theorem resolve_setCell (s : Sheet) (value : CellValue) (formula : Option String) (hb : b ≠ a) :
    (s.setCell a value formula).sheet.resolve b.label = s.resolve b.label := by
  obtain ⟨hrows, hcols, hcells⟩ := frame_setCell s a value formula
  obtain ⟨hcell, hformula⟩ := hcells b hb
  simp only [Sheet.resolve, Address.ofName_label, inBounds, hrows, hcols, hcell, hformula]
  rfl

theorem map_literalAt_setCell (s : Sheet) (value : CellValue) (formula : Option String) {cells : List Address}
    (hcells : a ∉ cells) (options : Options) (clock : Clock) :
    (cells.map fun d => ((s.setCell a value formula).sheet.context options clock).literalAt d.label) =
      cells.map fun d => (s.context options clock).literalAt d.label := by
  refine List.map_congr_left fun d hd => ?_
  have hda : d ≠ a := fun hda => hcells (hda ▸ hd)
  simp only [Context.literalAt, Sheet.context, resolve_setCell s value formula hda]

theorem Indexed.formulas_of_literal (hs : s.Indexed) (h : (s.cellAt a).isFormula = false) :
    s.formulas[a]? = none := by
  rw [hs.formulas]
  cases hcell : s.cells[a]? with
  | none => rfl
  | some cell =>
    rw [cellAt, hcell, Option.getD_some, Cell.isFormula, Option.isSome_eq_false_iff, Option.isNone_iff_eq_none] at h
    exact h

theorem Indexed.formulaAt?_of_none (hs : s.Indexed) (h : s.formulas[a]? = none) (options : Options)
    (clock : Clock) : (s.context options clock).formulaAt? a.label = none := by
  rw [Option.eq_none_iff_forall_not_mem]
  intro formula hseen
  obtain ⟨b, text, hname, -, htext, -⟩ := hs.exists_of_formulaAt? hseen
  rw [Address.ofName_label] at hname
  cases hname
  rw [h] at htext
  cases htext

theorem literalAt_of_isEmpty (hformula : s.formulas[a]? = none) (h : (s.cellAt a).isEmpty = true)
    (options : Options) (clock : Clock) : (s.context options clock).literalAt a.label = .empty := by
  have hcell : s.cells[a]?.filter (fun cell => !cell.isEmpty) = none := by
    rw [Option.filter_eq_none_iff]
    intro cell hcell
    rw [cellAt, hcell, Option.getD_some] at h
    simp [h]
  have hresolve : (s.context options clock).resolve a.label = none := by
    show s.resolve a.label = none
    simp only [Sheet.resolve, Address.ofName_label, hformula, hcell, Option.map_none, ite_self]
  rw [Context.literalAt, hresolve]

/-! ## Labels -/

/-- A text is read back without blanks at its end or as it is, so what is read
back is a number only if the text is. -/
theorem numberOf?_readBack (t : String) : numberOf? (readBack t).toList = numberOf? t.toList := by
  unfold readBack
  split
  · rw [String.toList_ofList, ← numberOf?_trim, ← (Text.isPadded_trimEnd t.toList).trim_eq, numberOf?_trim]
  · rfl

/-- The cells of a range are those before an address in it, the address, and those
behind it. -/
theorem exists_cellsIn_eq {r : Range} {bounds : Option (UInt32 × UInt32)} (ha : a ∈ r.cellsIn bounds) :
    ∃ before after, r.cellsIn bounds = before ++ a :: after ∧ a ∉ before ∧ a ∉ after := by
  obtain ⟨before, after, hcells⟩ := List.append_of_mem ha
  have hsorted := r.pairwise_cellsIn bounds
  rw [hcells, List.pairwise_append, List.pairwise_cons] at hsorted
  obtain ⟨-, ⟨hafter, -⟩, hbefore⟩ := hsorted
  refine ⟨before, after, hcells, fun hmem => ?_, fun hmem => ?_⟩
  · exact Std.Irrefl.irrefl a (hbefore a hmem a List.mem_cons_self)
  · exact Std.Irrefl.irrefl a (hafter a hmem)

theorem Indexed.evaluate_over (hs : s.Indexed) {b c : Address}
    (hnone : ∀ d ∈ (Range.spanning b c).cellsIn (some (s.rows, s.cols)), s.formulas[d]? = none)
    (hsize : ((Range.spanning b c).cellsIn (some (s.rows, s.cols))).length ≤ Options.default.maxRangeCells)
    (clock : Clock) (f : Aggregator) :
    s.evaluate clock (f.over b c) =
      .ok (f.ofValues (((Range.spanning b c).cellsIn (some (s.rows, s.cols))).map fun d =>
        (s.context Options.default clock).literalAt d.label)) :=
  Formula.evaluate_over (s.context Options.default clock) f
    (fun d hd => hs.formulaAt?_of_none (hnone d hd) Options.default clock) hsize

section

variable (hs : s.Reachable) {b c : Address}
  (hliteral : ∀ d ∈ (Range.spanning b c).cellsIn (some (s.rows, s.cols)), (s.cellAt d).isFormula = false)
  (hsize : ((Range.spanning b c).cellsIn (some (s.rows, s.cols))).length ≤ Options.default.maxRangeCells)
  (ha : (Range.spanning b c).contains a = true) (hin : s.inBounds a = true)
  (hempty : (s.cellAt a).isEmpty = true) (hblank : Text.trim t.toList ≠ [])
  (hnumber : numberOf? t.toList = none) (hboolean : booleanOfText? (Text.trim t.toList) = none) (clock : Clock)

include hs hliteral hsize ha hin hempty hblank hnumber hboolean

/-- Aggregators over the range find a label where they found no value, among the
values they found before. -/
theorem exists_values_of_label :
    ∃ before after label, numberOf? label.toList = none ∧ before.length + after.length < 2 ^ 52 ∧
      ∀ f : Aggregator, s.evaluate clock (f.over b c) = .ok (f.ofValues (before ++ .empty :: after)) ∧
        (s.setCell a (.text t) none).sheet.evaluate clock (f.over b c) =
          .ok (f.ofValues (before ++ .text label :: after)) := by
  obtain ⟨hin', hformula, hcell⟩ := setCell_none hin (.text t)
  obtain ⟨hrows, hcols, hother⟩ := frame_setCell s a (.text t) none
  have hindexed' := hs.indexed.setCell hin (.text t) none
  have hmem : a ∈ (Range.spanning b c).cellsIn (some (s.rows, s.cols)) := Range.mem_cellsIn.2 ⟨ha, hin⟩
  obtain ⟨before, after, hcells, hbefore, hafter⟩ := exists_cellsIn_eq hmem
  have hnone : ∀ d ∈ (Range.spanning b c).cellsIn (some (s.rows, s.cols)), s.formulas[d]? = none :=
    fun d hd => hs.indexed.formulas_of_literal (hliteral d hd)
  have hnone' : ∀ d ∈ (Range.spanning b c).cellsIn (some (s.rows, s.cols)),
      (s.setCell a (.text t) none).sheet.formulas[d]? = none := by
    intro d hd
    by_cases hda : d = a
    · rw [hda, hformula]
    · rw [(hother d hda).2, hnone d hd]
  have hvalue : (s.context Options.default clock).literalAt a.label = .empty :=
    literalAt_of_isEmpty (hnone a hmem) hempty Options.default clock
  have hvalue' : ((s.setCell a (.text t) none).sheet.context Options.default clock).literalAt a.label =
      .text (readBack t) :=
    literalAt_markedText (resolve_textCell hin' hformula hcell) hblank hnumber hboolean
  refine ⟨before.map fun d => (s.context Options.default clock).literalAt d.label,
    after.map fun d => (s.context Options.default clock).literalAt d.label, readBack t,
    (numberOf?_readBack t).trans hnumber, ?_, fun f => ⟨?_, ?_⟩⟩
  · have hmax : Options.default.maxRangeCells < 2 ^ 52 := by decide
    rw [hcells, List.length_append, List.length_cons] at hsize
    rw [List.length_map, List.length_map]
    omega
  · rw [hs.indexed.evaluate_over hnone hsize, hcells, List.map_append, List.map_cons, hvalue]
  · rw [← hrows, ← hcols] at hnone' hsize hcells
    rw [hindexed'.evaluate_over hnone' hsize, hcells, List.map_append, List.map_cons, hvalue',
      map_literalAt_setCell s _ _ hbefore, map_literalAt_setCell s _ _ hafter]

/-- A label that is written into an empty cell leaves the aggregates of numbers over
every range around the cell as they were, and counts as one value more. -/
theorem aggregates_of_label :
    (s.setCell a (.text t) none).cell = .ok (Cell.ofContent (.text t) none) ∧
      (∀ f : Aggregator, f ≠ .count → f ≠ .concatenate → ∃ x, s.evaluate clock (f.over b c) = .ok (.number x) ∧
        (s.setCell a (.text t) none).sheet.evaluate clock (f.over b c) = .ok (.number x)) ∧
      ∃ (x y : Float) (n : Nat), s.evaluate clock (Aggregator.count.over b c) = .ok (.number x) ∧
        (s.setCell a (.text t) none).sheet.evaluate clock (Aggregator.count.over b c) = .ok (.number y) ∧
        Number.whole? x = some (n : Int) ∧ Number.whole? y = some ((n + 1 : Nat) : Int) := by
  obtain ⟨before, after, label, hlabel, hlength, hvalues⟩ :=
    exists_values_of_label hs hliteral hsize ha hin hempty hblank hnumber hboolean clock
  refine ⟨setCell_of_inBounds hin _ _, fun f hcount hconcatenate => ?_, ?_⟩
  · obtain ⟨x, hx, hx'⟩ := Aggregator.exists_ofValues_label hlabel hcount hconcatenate
    exact ⟨x, (hvalues f).1.trans (congrArg Except.ok hx), (hvalues f).2.trans (congrArg Except.ok hx')⟩
  · obtain ⟨n, hn, hn'⟩ := Formula.whole?_countOf_label label hlength
    exact ⟨_, _, n, (hvalues .count).1, (hvalues .count).2, hn, hn'⟩

end

/-- Two numbers above an empty cell. -/
def measured : List (Clock × Operation) :=
  [(.epoch, .setInput ⟨0, 0⟩ "4"), (.epoch, .setInput ⟨1, 0⟩ "-2.5")]

theorem aggregates_of_marked_label :
    (((ofBounds 3 2).after measured).setCell ⟨2, 0⟩ (.text "=x1") none).cell =
        .ok (Cell.ofContent (.text "=x1") none) ∧
      (∀ f : Aggregator, f ≠ .count → f ≠ .concatenate → ∃ x,
        ((ofBounds 3 2).after measured).evaluate .epoch (f.over ⟨9, 0⟩ ⟨0, 1⟩) = .ok (.number x) ∧
        (((ofBounds 3 2).after measured).setCell ⟨2, 0⟩ (.text "=x1") none).sheet.evaluate .epoch
          (f.over ⟨9, 0⟩ ⟨0, 1⟩) = .ok (.number x)) ∧
      ∃ (x y : Float) (n : Nat),
        ((ofBounds 3 2).after measured).evaluate .epoch (Aggregator.count.over ⟨9, 0⟩ ⟨0, 1⟩) = .ok (.number x) ∧
        (((ofBounds 3 2).after measured).setCell ⟨2, 0⟩ (.text "=x1") none).sheet.evaluate .epoch
          (Aggregator.count.over ⟨9, 0⟩ ⟨0, 1⟩) = .ok (.number y) ∧
        Number.whole? x = some (n : Int) ∧ Number.whole? y = some ((n + 1 : Nat) : Int) :=
  aggregates_of_label ((Reachable.ofBounds 3 2).after measured) (by decide +kernel) (by decide +kernel)
    (by decide) (by decide +kernel) (by decide +kernel) (by decide) (by rfl) (by rfl) .epoch

end Spreadsheet.Sheet

import Spreadsheet.Proofs.Address.Range
import Spreadsheet.Sheet.Table

/-
  Blocks of cells and clamped ranges.

  The sheet cuts a block off at the edge of the grid on its own, and lists its
  lines by their numbers; formulas clamp a range and walk through what is left.
  Both come to the same cells in the same order, and to none for the same ranges
  (`flatten_block`).
-/

namespace Spreadsheet

namespace Range

variable {r part : Range} {rows cols : UInt32}

theorem clamp_eq_none_iff : r.clamp rows cols = none ↔ rows ≤ r.topLeft.row ∨ cols ≤ r.topLeft.col := by
  simp only [clamp, ite_eq_left_iff, Bool.or_eq_true, decide_eq_true_eq, ge_iff_le, reduceCtorEq, imp_false,
    not_not]

theorem corners_of_clamp (h : r.clamp rows cols = some part) : part.topLeft = r.topLeft ∧
    part.bottomRight = ⟨min r.bottomRight.row (rows - 1), min r.bottomRight.col (cols - 1)⟩ := by
  obtain ⟨hrows, hcols⟩ := toNat_of_clamp h
  obtain ⟨hgridRow, hgridCol⟩ := lt_of_clamp h
  rw [clamp, if_neg (by simp [hgridRow, hgridCol])] at h
  cases h
  obtain ⟨⟨top, left⟩, ⟨bottom, right⟩, hrow, hcol⟩ := r
  simp only [UInt32.lt_iff_toNat_lt, UInt32.le_iff_toNat_le] at hgridRow hgridCol hrow hcol
  simp only [spanning, Address.mk.injEq, ← UInt32.toNat_inj, toNat_min, toNat_max]
  omega

end Range

namespace Sheet

theorem interval_eq_run {first last : UInt32} (h : first ≤ last) :
    interval first last = Range.run first (last.toNat - first.toNat + 1) := by
  rw [UInt32.le_iff_toNat_le] at h
  rw [interval, Range.run, Nat.sub_add_comm h, List.range'_eq_map_range, List.map_map]
  refine List.map_congr_left fun i _ => ?_
  simp only [Function.comp_apply, Nat.toUInt32, UInt32.ofNat_add, UInt32.ofNat_toNat]

variable (s : Sheet) {r part : Range}

theorem block_of_clamp_none (h : r.clamp s.rows s.cols = none) : s.block r.topLeft r.bottomRight = [] := by
  rw [block]
  split
  · rfl
  · rename_i hgrid
    refine if_pos ?_
    simp only [Bool.or_eq_true, decide_eq_true_eq, not_or, ← UInt32.pos_iff_ne_zero] at hgrid
    have hrows := Range.toNat_sub_one hgrid.1
    have hcols := Range.toNat_sub_one hgrid.2
    simp only [Range.clamp_eq_none_iff, UInt32.le_iff_toNat_le] at h
    simp only [UInt32.lt_iff_toNat_lt, UInt32.toNat_zero] at hgrid
    simp only [Bool.or_eq_true, decide_eq_true_eq, gt_iff_lt, UInt32.lt_iff_toNat_lt, Range.toNat_min]
    omega

theorem block_of_clamp (h : r.clamp s.rows s.cols = some part) : s.block r.topLeft r.bottomRight =
    part.rows.map fun row => part.cols.map fun col => s.cellAt ⟨row, col⟩ := by
  obtain ⟨hfirst, hlast⟩ := Range.corners_of_clamp h
  obtain ⟨hrows, hcols⟩ := Range.toNat_of_clamp h
  have hlastRow : min r.bottomRight.row (s.rows - 1) = part.bottomRight.row := by rw [hlast]
  have hlastCol : min r.bottomRight.col (s.cols - 1) = part.bottomRight.col := by rw [hlast]
  have hgrid : ¬ (s.rows = 0 || s.cols = 0) = true := by
    simp only [Bool.or_eq_true, decide_eq_true_eq, ← UInt32.toNat_inj, UInt32.toNat_zero]
    omega
  have hpart : ¬ (part.topLeft.row > part.bottomRight.row || part.topLeft.col > part.bottomRight.col) = true := by
    simp [part.row_le, part.col_le]
  simp only [block]
  rw [if_neg hgrid, hlastRow, hlastCol, ← hfirst, if_neg hpart, interval_eq_run part.row_le,
    interval_eq_run part.col_le]
  rfl

/-- The rows of the block between the corners of a range, one after another, are
the cells that a walk through the part of the range in the grid meets before it
ends, and there is no block exactly if there is no such part. -/
theorem flatten_block (a b : Address) :
    (∀ part, (Range.spanning a b).clamp s.rows s.cols = some part → ∀ n, part.size ≤ n →
      (s.block (Range.spanning a b).topLeft (Range.spanning a b).bottomRight).flatten =
        (part.firstCells n).map s.cellAt) ∧
    (s.block (Range.spanning a b).topLeft (Range.spanning a b).bottomRight = [] ↔
      (Range.spanning a b).clamp s.rows s.cols = none) := by
  refine ⟨fun part hpart n hn => ?_, fun hblock => ?_, s.block_of_clamp_none⟩
  · rw [s.block_of_clamp hpart, part.firstCells_of_size_le hn, Range.cells, List.map_flatMap]
    simp only [List.map_map]
    rfl
  · cases hpart : (Range.spanning a b).clamp s.rows s.cols with
    | none => rfl
    | some part =>
      rw [s.block_of_clamp hpart, List.map_eq_nil_iff, Range.rows, Range.height, Range.run_succ] at hblock
      cases hblock

end Sheet

end Spreadsheet

import Spreadsheet.Proofs.Sheet.Bounds
import Spreadsheet.Proofs.Sheet.Index
import Spreadsheet.Proofs.Sheet.Moves

/-
  Deleting the lines that were inserted.

  An insertion and a deletion are two moves of the same grid, so one after the
  other they are the move that composes them (`Grid.moved_moved`). On the lines of
  the grid that composition is the identity as long as the grid has room for the
  new lines (`opened_bind_closed`), and a move that leaves every stored cell where
  it is leaves the grid (`Grid.moved_eq_self`). The formulas are moved along with
  the cells, and the size comes back too (`after_insert_delete`).
-/

namespace Spreadsheet

/-! ## Lines there and back -/

section

variable {first count lines : UInt32} (hfirst : first ≤ lines)
  (hroom : lines.toNat + count.toNat ≤ lastLine.toNat)

include hroom in
theorem toNat_saturatingAdd_of_room : (saturatingAdd lines count).toNat = lines.toNat + count.toNat := by
  rw [toNat_saturatingAdd]
  exact Nat.min_eq_left hroom

include hroom in
theorem opened_bind_closed {line : UInt32} (hline : line < lines) :
    (opened first count line).bind (closed first count) = some line := by
  have hword : UInt32.size = 4294967296 := rfl
  have hlast : lastLine.toNat = 4294967295 := rfl
  have hsum : line.toNat + count.toNat < UInt32.size := by
    rw [UInt32.lt_iff_toNat_lt] at hline
    omega
  by_cases hle : first ≤ line
  · have hend : ¬ line + count < first + count := by
      rw [UInt32.le_iff_toNat_le] at hle
      rw [UInt32.lt_iff_toNat_lt, UInt32.toNat_add, UInt32.toNat_add, Nat.mod_eq_of_lt hsum,
        Nat.mod_eq_of_lt (by omega)]
      omega
    have hbehind : ¬ line + count < first := by
      rw [UInt32.le_iff_toNat_le] at hle
      rw [UInt32.lt_iff_toNat_lt, UInt32.toNat_add, Nat.mod_eq_of_lt hsum]
      omega
    rw [opened, if_pos hle, checkedAdd, if_pos hsum, Option.bind_some, closed, if_neg hbehind,
      if_neg hend, UInt32.add_sub_cancel]
  · rw [opened, if_neg hle, Option.bind_some, closed, if_pos (UInt32.not_le.1 hle)]

include hfirst hroom in
theorem min_saturatingAdd_sub : min count (saturatingAdd lines count - first) = count := by
  have hsize := toNat_saturatingAdd_of_room hroom
  rw [UInt32.le_iff_toNat_le] at hfirst
  have hle : first ≤ saturatingAdd lines count := by
    rw [UInt32.le_iff_toNat_le]
    omega
  rw [← UInt32.toNat_inj, Range.toNat_min, UInt32.toNat_sub_of_le _ _ hle]
  omega

include hroom in
theorem saturatingAdd_sub : saturatingAdd lines count - count = lines := by
  have hsize := toNat_saturatingAdd_of_room hroom
  have hle : count ≤ saturatingAdd lines count := by
    rw [UInt32.le_iff_toNat_le]
    omega
  rw [← UInt32.toNat_inj, UInt32.toNat_sub_of_le _ _ hle]
  omega

include hfirst hroom in
/-- If the first of them is behind the grid, then because no line was inserted. -/
theorem eq_of_saturatingAdd_le (hbehind : saturatingAdd lines count ≤ first) :
    saturatingAdd lines count = lines ∧ first = lines := by
  have hsize := toNat_saturatingAdd_of_room hroom
  rw [UInt32.le_iff_toNat_le] at hfirst hbehind
  rw [← UInt32.toNat_inj, ← UInt32.toNat_inj]
  omega

end

/-! ## The sheet there and back -/

namespace Sheet

section

variable {s : Sheet} (hs : s.Indexed)

include hs

/-- Formulas stand where cells are stored, so a move that leaves these leaves the
sheet. -/
theorem moved_eq_self {f : Address → Option Address} (hf : Grid.Injective f)
    (hself : ∀ a cell, s.cells[a]? = some cell → f a = some a) : s.moved f = s := by
  have hformulas : ∀ a text, s.formulas[a]? = some text → f a = some a := by
    intro a text htext
    obtain ⟨cell, hcell, -⟩ := hs.exists_cell htext
    exact hself a cell hcell
  rw [Sheet.moved, Grid.moved_eq_self hf hself, Grid.moved_eq_self hf hformulas]

variable {map? : (UInt32 → Option UInt32) → Address → Option Address} {line : Address → UInt32}
  (hway : Along map? line) {first count lines : UInt32}
  (hlines : ∀ a cell, s.cells[a]? = some cell → line a < lines) (hfirst : first ≤ lines)
  (hroom : lines.toNat + count.toNat ≤ lastLine.toNat)

include hway hlines

theorem moved_opened : s.moved (map? (opened lines count)) = s := by
  refine moved_eq_self hs (hway.injective fun _ _ _ => opened_injective) fun a cell hcell => ?_
  exact hway.stays (if_neg (UInt32.not_le.2 (hlines a cell hcell)))

include hfirst hroom

theorem moved_opened_closed :
    (s.moved (map? (opened first count))).moved (map? (closed first count)) = s := by
  have hend : first.toNat + count.toNat < UInt32.size := by
    have hlast : lastLine.toNat < UInt32.size := lastLine.toNat_lt
    rw [UInt32.le_iff_toNat_le] at hfirst
    omega
  have hopened : Grid.Injective (map? (opened first count)) :=
    hway.injective fun _ _ _ => opened_injective
  have hclosed : Grid.Injective (map? (closed first count)) :=
    hway.injective fun _ _ _ => closed_injective hend
  rw [Sheet.moved_moved hopened hclosed]
  refine moved_eq_self hs (hopened.bind hclosed) fun a cell hcell => ?_
  exact hway.back (opened_bind_closed hroom (hlines a cell hcell))

end

section

variable {s : Sheet} (hs : s.Indexed) (hwithin : s.Within) {first count : UInt32}

include hs hwithin

/-- Rows that were inserted are deleted, or none were and there is none to
delete. -/
theorem deleteRows_insertRows (hfirst : first ≤ s.rows)
    (hroom : s.rows.toNat + count.toNat ≤ lastLine.toNat) :
    ((s.insertRows first count).sheet.deleteRows first count).sheet = s := by
  have hlines : ∀ (a : Address) cell, s.cells[a]? = some cell → a.row < s.rows :=
    fun a cell hcell => (inBounds_iff.1 (hwithin a cell hcell)).1
  rw [insertRows, if_neg (UInt32.not_lt.2 hfirst), deleteRows]
  dsimp only
  split
  · rename_i hbehind
    obtain ⟨hsize, rfl⟩ := eq_of_saturatingAdd_le hfirst hroom hbehind
    rw [moved_opened hs along_row hlines, hsize]
  · have hback := moved_opened_closed hs along_row hlines hfirst hroom
    rw [min_saturatingAdd_sub hfirst hroom, saturatingAdd_sub hroom]
    exact congrArg (fun t : Sheet => { t with rows := s.rows }) hback

theorem deleteCols_insertCols (hfirst : first ≤ s.cols)
    (hroom : s.cols.toNat + count.toNat ≤ lastLine.toNat) :
    ((s.insertCols first count).sheet.deleteCols first count).sheet = s := by
  have hlines : ∀ (a : Address) cell, s.cells[a]? = some cell → a.col < s.cols :=
    fun a cell hcell => (inBounds_iff.1 (hwithin a cell hcell)).2
  rw [insertCols, if_neg (UInt32.not_lt.2 hfirst), deleteCols]
  dsimp only
  split
  · rename_i hbehind
    obtain ⟨hsize, rfl⟩ := eq_of_saturatingAdd_le hfirst hroom hbehind
    rw [moved_opened hs along_col hlines, hsize]
  · have hback := moved_opened_closed hs along_col hlines hfirst hroom
    rw [min_saturatingAdd_sub hfirst hroom, saturatingAdd_sub hroom]
    exact congrArg (fun t : Sheet => { t with cols := s.cols }) hback

end

/-- Lines inserted into a sheet with all its cells in the grid, and then deleted,
leave the sheet as it was, if the grid has room for them. -/
theorem after_insert_delete {s : Sheet} (hs : s.Reachable) (hwithin : s.Within) (clock clock' : Clock)
    (first count : UInt32) :
    (first ≤ s.rows → s.rows.toNat + count.toNat ≤ lastLine.toNat →
      s.after [(clock, .insertRows first count), (clock', .deleteRows first count)] = s) ∧
    (first ≤ s.cols → s.cols.toNat + count.toNat ≤ lastLine.toNat →
      s.after [(clock, .insertCols first count), (clock', .deleteCols first count)] = s) := by
  constructor
  · intro hfirst hroom
    exact deleteRows_insertRows hs.indexed hwithin hfirst hroom
  · intro hfirst hroom
    exact deleteCols_insertCols hs.indexed hwithin hfirst hroom

/-- A number and two formulas on three lines. -/
def diagonal : Sheet :=
  (ofBounds 3 3).after [(.epoch, .setInput ⟨0, 0⟩ "1"), (.epoch, .setInput ⟨1, 1⟩ "=A1"),
    (.epoch, .setInput ⟨2, 2⟩ "=B2+1")]

/-- As many rows are inserted as there can be, in the middle: the last cell goes to
the last row there can be, and comes back. Behind the last column none is inserted,
and the deletion is refused. -/
theorem diagonal_after_insert_delete :
    (diagonal.after [(.epoch, .insertRows 1 4294967292)]).formulas[(⟨4294967294, 2⟩ : Address)]? =
      some "=B2+1" ∧
    diagonal.after [(.epoch, .insertRows 1 4294967292), (.epoch, .deleteRows 1 4294967292)] = diagonal ∧
    diagonal.after [(.epoch, .insertCols 3 0), (.epoch, .deleteCols 3 0)] = diagonal := by
  have hstored : ∀ stored ∈ diagonal.cells.toList, diagonal.inBounds stored.1 = true := by
    decide +kernel
  have hwithin : diagonal.Within := fun a cell hcell =>
    hstored (a, cell) (Std.ExtTreeMap.mem_toList_iff_getElem?_eq_some.2 hcell)
  have hreachable : diagonal.Reachable := (Reachable.ofBounds 3 3).after _
  obtain ⟨hrows, -⟩ := after_insert_delete hreachable hwithin .epoch .epoch 1 4294967292
  obtain ⟨-, hcols⟩ := after_insert_delete hreachable hwithin .epoch .epoch 3 0
  exact ⟨by decide +kernel, hrows (by decide +kernel) (by decide +kernel),
    hcols (by decide +kernel) (by decide +kernel)⟩

end Sheet

end Spreadsheet

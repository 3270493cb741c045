import Mathlib.Data.List.Sort
import Spreadsheet.Address.Range

/-
  Addresses in ranges.

  The list of a range's cells has every address in the range and no other, row
  by row (`mem_cells_iff`, `pairwise_cells`), and a walk through the range meets
  them in this order (`firstCells_size`). Clamping a range to a grid leaves the
  cells that lie in the grid, in their order (`cells_of_clampIn`); there are none
  if it leaves nothing.
-/

namespace Spreadsheet

/-! ## Row-major order -/

/-- Whether an address comes before another one, row by row. -/
def Address.Before (a b : Address) : Prop := compare a b = .lt

theorem Address.before_iff {a b : Address} :
    a.Before b ↔ a.row < b.row ∨ a.row = b.row ∧ a.col < b.col := by
  have hrow : compare a.row b.row = .eq ↔ a.row = b.row := Std.LawfulEqCmp.compare_eq_iff_eq
  rw [← Std.compare_eq_lt, ← Std.compare_eq_lt, ← hrow]
  exact Ordering.then_eq_lt

instance : Std.Irrefl Address.Before where
  irrefl a h := by
    have hself : compare a a = .eq := Std.ReflCmp.compare_self
    rw [Address.Before, hself] at h
    cases h

instance : Std.Antisymm Address.Before where
  antisymm a b h h' := by
    have hswap : compare b a = (compare a b).swap := Std.OrientedCmp.eq_swap
    rw [Address.Before, hswap, h] at h'
    cases h'

/-- Whether an address lies in a grid, which may have no end. -/
def Address.isIn (bounds : Option (UInt32 × UInt32)) (a : Address) : Bool :=
  bounds.all fun (rows, cols) => a.row < rows && a.col < cols

theorem Address.isIn_iff {bounds : Option (UInt32 × UInt32)} {a : Address} :
    a.isIn bounds = true ↔ ∀ size ∈ bounds, a.row < size.1 ∧ a.col < size.2 := by
  cases bounds <;> simp [Address.isIn]

namespace Range

/-! ## The cells of a range -/

theorem contains_iff {r : Range} {a : Address} : r.contains a = true ↔
    (r.topLeft.row.toNat ≤ a.row.toNat ∧ a.row.toNat ≤ r.bottomRight.row.toNat) ∧
      r.topLeft.col.toNat ≤ a.col.toNat ∧ a.col.toNat ≤ r.bottomRight.col.toNat := by
  simp only [contains, Bool.and_eq_true, decide_eq_true_eq, UInt32.le_iff_toNat_le]
  constructor
  · intro h
    exact ⟨h.1.1, h.1.2, h.2⟩
  · intro h
    exact ⟨⟨h.1, h.2.1⟩, h.2.2⟩

theorem toNat_add_height (r : Range) :
    r.topLeft.row.toNat + r.height = r.bottomRight.row.toNat + 1 := by
  have hrow := UInt32.le_iff_toNat_le.1 r.row_le
  rw [height]
  omega

theorem toNat_add_width (r : Range) :
    r.topLeft.col.toNat + r.width = r.bottomRight.col.toNat + 1 := by
  have hcol := UInt32.le_iff_toNat_le.1 r.col_le
  rw [width]
  omega

section

variable {first : UInt32} {count : Nat} (hcount : first.toNat + count ≤ UInt32.size)

theorem toNat_add_toUInt32 {i : Nat} (h : first.toNat + i < UInt32.size) :
    (first + i.toUInt32).toNat = first.toNat + i := by
  rw [UInt32.size] at h
  rw [UInt32.toNat_add]
  simp only [Nat.toUInt32, UInt32.toNat_ofNat']
  omega

include hcount

theorem mem_run {x : UInt32} :
    x ∈ run first count ↔ first.toNat ≤ x.toNat ∧ x.toNat < first.toNat + count := by
  constructor
  · intro h
    obtain ⟨i, hi, rfl⟩ := List.mem_map.1 h
    have hi := List.mem_range.1 hi
    rw [toNat_add_toUInt32 (by omega)]
    omega
  · rintro ⟨hfirst, hlast⟩
    refine List.mem_map.2 ⟨x.toNat - first.toNat, List.mem_range.2 (by omega), ?_⟩
    rw [← UInt32.toNat_inj, toNat_add_toUInt32 (by omega)]
    omega

theorem pairwise_run : (run first count).Pairwise (· < ·) := by
  refine List.pairwise_map.2 (List.pairwise_lt_range.imp_of_mem fun {i j} hi hj hij => ?_)
  have hi := List.mem_range.1 hi
  have hj := List.mem_range.1 hj
  rw [UInt32.lt_iff_toNat_lt, toNat_add_toUInt32 (by omega), toNat_add_toUInt32 (by omega)]
  omega

end

section

variable (r : Range)

theorem toNat_add_height_le : r.topLeft.row.toNat + r.height ≤ UInt32.size := by
  rw [toNat_add_height]
  exact r.bottomRight.row.toNat_lt

theorem toNat_add_width_le : r.topLeft.col.toNat + r.width ≤ UInt32.size := by
  rw [toNat_add_width]
  exact r.bottomRight.col.toNat_lt

theorem mem_cells_iff {r : Range} {a : Address} : a ∈ r.cells ↔ r.contains a = true := by
  have hheight := r.toNat_add_height
  have hwidth := r.toNat_add_width
  rw [contains_iff, cells, List.mem_flatMap]
  constructor
  · rintro ⟨row, hrow, h⟩
    obtain ⟨col, hcol, rfl⟩ := List.mem_map.1 h
    obtain ⟨hrow, hrow'⟩ := (mem_run r.toNat_add_height_le).1 hrow
    obtain ⟨hcol, hcol'⟩ := (mem_run r.toNat_add_width_le).1 hcol
    exact ⟨⟨hrow, by show row.toNat ≤ _; omega⟩, hcol, by show col.toNat ≤ _; omega⟩
  · rintro ⟨⟨hrow, hrow'⟩, hcol, hcol'⟩
    exact ⟨a.row, (mem_run r.toNat_add_height_le).2 ⟨hrow, by omega⟩,
      List.mem_map.2 ⟨a.col, (mem_run r.toNat_add_width_le).2 ⟨hcol, by omega⟩, rfl⟩⟩

theorem pairwise_cells : r.cells.Pairwise Address.Before := by
  refine List.pairwise_flatMap.2 ⟨fun row _ => ?_, ?_⟩
  · refine List.pairwise_map.2 ((pairwise_run r.toNat_add_width_le).imp fun {col col'} hcol => ?_)
    exact Address.before_iff.2 (.inr ⟨rfl, hcol⟩)
  · refine (pairwise_run r.toNat_add_height_le).imp fun {row row'} hrow a ha b hb => ?_
    obtain ⟨col, -, rfl⟩ := List.mem_map.1 ha
    obtain ⟨col', -, rfl⟩ := List.mem_map.1 hb
    exact Address.before_iff.2 (.inl hrow)

theorem length_cells : r.cells.length = r.size := by
  have hrows : r.rows.length = r.height := by simp [rows, run]
  have hcols : r.cols.length = r.width := by simp [cols, run]
  rw [cells, List.length_flatMap]
  simp only [List.length_map, hcols, List.map_const', hrows, List.sum_replicate_nat, size]

theorem toNat_distance {first last : UInt32} (h : first ≤ last) :
    ((last - first).toUInt64 + 1).toNat = last.toNat - first.toNat + 1 := by
  have hlast := last.toNat_lt
  rw [UInt64.toNat_add, UInt32.toNat_toUInt64, UInt32.toNat_sub_of_le last first h, UInt64.toNat_one]
  omega

theorem toNat_rowCount : r.rowCount.toNat = r.height := toNat_distance r.row_le

theorem toNat_colCount : r.colCount.toNat = r.width := toNat_distance r.col_le

theorem toNat_cellCount_le : r.cellCount.toNat ≤ r.size := by
  rw [cellCount, UInt64.toNat_mul, toNat_rowCount, toNat_colCount]
  exact Nat.mod_le _ _

/-! ## Walks -/

theorem run_succ (first : UInt32) (count : Nat) :
    run first (count + 1) = first :: run (first + 1) count := by
  simp only [run, List.range_succ_eq_map, List.map_cons, List.map_map]
  refine congrArg₂ List.cons (by simp [Nat.toUInt32]) (List.map_congr_left fun i _ => ?_)
  simp only [Function.comp_apply, Nat.toUInt32, Nat.succ_eq_add_one, UInt32.ofNat_add]
  ac_rfl

theorem toNat_add_one {x last : UInt32} (h : x.toNat < last.toNat) : (x + 1).toNat = x.toNat + 1 := by
  have hlast := last.toNat_lt
  rw [UInt32.toNat_add, UInt32.toNat_one]
  omega

/-- A walk goes to the end of the row. -/
theorem walk_row (row : UInt32) (n : Nat) {k : Nat} {col : UInt32}
    (hk : col.toNat + k = r.bottomRight.col.toNat) :
    r.walk (k + 1 + n) (some ⟨row, col⟩) =
      ((run col (k + 1)).map fun col => ⟨row, col⟩) ++ r.walk n (r.next? ⟨row, r.bottomRight.col⟩) := by
  -- on the columns that are left in the row
  induction k generalizing col with
  | zero =>
    have hcol : col = r.bottomRight.col := UInt32.toNat_inj.1 (by omega)
    rw [Nat.zero_add, Nat.add_comm, walk, run_succ, hcol]
    rfl
  | succ k ih =>
    have hlt : col.toNat < r.bottomRight.col.toNat := by omega
    have hnext : r.next? ⟨row, col⟩ = some ⟨row, col + 1⟩ := if_pos (UInt32.lt_iff_toNat_lt.2 hlt)
    rw [show k + 1 + 1 + n = k + 1 + n + 1 by omega, walk, hnext,
      ih (by rw [toNat_add_one hlt]; omega), run_succ col, List.map_cons, List.cons_append]

theorem walk_none (n : Nat) : r.walk n none = [] := by cases n <;> rfl

theorem walk_rows (n : Nat) {k : Nat} {row : UInt32} (hk : row.toNat + k = r.bottomRight.row.toNat) :
    r.walk ((k + 1) * r.width + n) (some ⟨row, r.topLeft.col⟩) =
      (run row (k + 1)).flatMap fun row => r.cols.map fun col => ⟨row, col⟩ := by
  have hcol := UInt32.le_iff_toNat_le.1 r.col_le
  obtain ⟨w, hw⟩ : ∃ w, r.width = w + 1 := ⟨_, rfl⟩
  have hwidth : r.topLeft.col.toNat + w = r.bottomRight.col.toNat := by
    have hwidth := r.toNat_add_width
    omega
  -- on the rows that are left, each of which `walk_row` goes through
  induction k generalizing row with
  | zero =>
    have hrow : row = r.bottomRight.row := UInt32.toNat_inj.1 (by omega)
    have hlast : r.next? ⟨r.bottomRight.row, r.bottomRight.col⟩ = none := by
      rw [next?, if_neg (UInt32.lt_irrefl _), if_neg (UInt32.lt_irrefl _)]
    rw [show (0 + 1) * r.width + n = w + 1 + n by omega, hrow, r.walk_row _ n hwidth, hlast, walk_none,
      run_succ r.bottomRight.row, List.flatMap_cons, cols, hw]
    rfl
  | succ k ih =>
    have hlt : row.toNat < r.bottomRight.row.toNat := by omega
    have hnext : r.next? ⟨row, r.bottomRight.col⟩ = some ⟨row + 1, r.topLeft.col⟩ := by
      rw [next?, if_neg (UInt32.lt_irrefl _), if_pos (UInt32.lt_iff_toNat_lt.2 hlt)]
    rw [Nat.succ_mul, show (k + 1) * r.width + r.width + n = r.width + ((k + 1) * r.width + n) by omega, hw,
      r.walk_row row _ hwidth, hnext, ← hw, ih (by rw [toNat_add_one hlt]; omega), run_succ row,
      List.flatMap_cons, cols, hw]

/-- A walk that is long enough meets the cells of the range in their order and
then ends. -/
theorem firstCells_of_size_le {n : Nat} (h : r.size ≤ n) : r.firstCells n = r.cells := by
  have hrow := UInt32.le_iff_toNat_le.1 r.row_le
  have hrows : r.topLeft.row.toNat + (r.bottomRight.row.toNat - r.topLeft.row.toNat) =
      r.bottomRight.row.toNat := by omega
  obtain ⟨more, rfl⟩ := Nat.exists_eq_add_of_le h
  exact r.walk_rows more hrows

theorem firstCells_size : r.firstCells r.size = r.cells := r.firstCells_of_size_le (Nat.le_refl _)

end

/-! ## Corners -/

theorem toNat_min (x y : UInt32) : (min x y).toNat = min x.toNat y.toNat := by
  show (if x ≤ y then x else y).toNat = _
  simp only [UInt32.le_iff_toNat_le]
  split <;> omega

theorem toNat_max (x y : UInt32) : (max x y).toNat = max x.toNat y.toNat := by
  show (if x ≤ y then y else x).toNat = _
  simp only [UInt32.le_iff_toNat_le]
  split <;> omega

/-- A fold in which the greater size is kept stays below a bound exactly if all
that goes into it does. -/
theorem foldl_lt_iff {α β : Type} {f : β → α → β} {g : β → Nat} {h : α → Nat}
    (hf : ∀ b a, g (f b a) = max (g b) (h a)) (l : List α) (b : β) (n : Nat) :
    g (l.foldl f b) < n ↔ g b < n ∧ ∀ a ∈ l, h a < n := by
  induction l generalizing b with
  | nil => simp
  | cons a l ih => rw [List.foldl_cons, ih, hf, Nat.max_lt, List.forall_mem_cons, and_assoc]

/-- Whether two addresses are corners of the range that lie opposite each other. -/
def Opposite (r : Range) (a b : Address) : Prop :=
  (a.row = r.topLeft.row ∧ b.row = r.bottomRight.row ∨ a.row = r.bottomRight.row ∧ b.row = r.topLeft.row) ∧
    (a.col = r.topLeft.col ∧ b.col = r.bottomRight.col ∨ a.col = r.bottomRight.col ∧ b.col = r.topLeft.col)

theorem Opposite.spanning_eq {r : Range} {a b : Address} (h : r.Opposite a b) : spanning a b = r := by
  obtain ⟨⟨top, left⟩, ⟨bottom, right⟩, hrow, hcol⟩ := r
  simp only [Opposite, ← UInt32.toNat_inj] at h
  simp only [UInt32.le_iff_toNat_le] at hrow hcol
  simp only [spanning, mk.injEq, Address.mk.injEq, ← UInt32.toNat_inj, toNat_min, toNat_max]
  omega

theorem spanning_corners (r : Range) : spanning r.topLeft r.bottomRight = r :=
  Opposite.spanning_eq ⟨.inl ⟨rfl, rfl⟩, .inl ⟨rfl, rfl⟩⟩

theorem single_topLeft {r : Range} (h : r.topLeft = r.bottomRight) : single r.topLeft = r := by
  obtain ⟨corner, corner', hrow, hcol⟩ := r
  obtain rfl : corner = corner' := h
  rfl

/-! ## Clamping -/

theorem toNat_sub_one {x n : UInt32} (h : x < n) : (n - 1).toNat = n.toNat - 1 := by
  rw [UInt32.lt_iff_toNat_lt] at h
  exact UInt32.toNat_sub_of_le n 1 (by rw [UInt32.le_iff_toNat_le]; show 1 ≤ _; omega)

variable {r part : Range} {a : Address} {rows cols : UInt32}

/-- Clamping leaves a part only of a range that starts in the grid. -/
theorem lt_of_clamp (h : r.clamp rows cols = some part) : r.topLeft.row < rows ∧ r.topLeft.col < cols := by
  unfold clamp at h
  split at h
  · cases h
  · rename_i hgrid
    simpa only [Bool.or_eq_true, decide_eq_true_eq, not_or, ge_iff_le, UInt32.not_le] using hgrid

/-- Clamping subtracts one from the size of the grid only where there is one. -/
theorem toNat_of_clamp (h : r.clamp rows cols = some part) :
    (rows - 1).toNat + 1 = rows.toNat ∧ (cols - 1).toNat + 1 = cols.toNat := by
  obtain ⟨hrow, hcol⟩ := lt_of_clamp h
  have hrows := toNat_sub_one hrow
  have hcols := toNat_sub_one hcol
  rw [UInt32.lt_iff_toNat_lt] at hrow hcol
  omega

theorem contains_clamp (h : r.clamp rows cols = some part) :
    part.contains a = true ↔ r.contains a = true ∧ a.isIn (some (rows, cols)) = true := by
  obtain ⟨hrow, hcol⟩ := lt_of_clamp h
  have hrows := toNat_sub_one hrow
  have hcols := toNat_sub_one hcol
  have hrange := UInt32.le_iff_toNat_le.1 r.row_le
  have hrange' := UInt32.le_iff_toNat_le.1 r.col_le
  rw [clamp, if_neg (by simp [hrow, hcol])] at h
  cases h
  simp only [contains_iff, Address.isIn, Option.all_some, Bool.and_eq_true, decide_eq_true_eq,
    UInt32.lt_iff_toNat_lt, spanning, toNat_min, toNat_max, hrows, hcols] at hrow hcol ⊢
  omega

theorem exists_clamp (h : r.contains a = true) (hin : a.isIn (some (rows, cols)) = true) :
    ∃ part, r.clamp rows cols = some part := by
  obtain ⟨hrow, hcol⟩ := Address.isIn_iff.1 hin _ rfl
  obtain ⟨⟨htop, -⟩, hleft, -⟩ := contains_iff.1 h
  simp only [UInt32.lt_iff_toNat_lt] at hrow hcol
  refine ⟨_, if_neg ?_⟩
  simp only [ge_iff_le, UInt32.le_iff_toNat_le, Bool.or_eq_true, decide_eq_true_eq]
  omega

/-- The part of a range in a grid, which may have no end. -/
def clampIn (bounds : Option (UInt32 × UInt32)) (r : Range) : Option Range :=
  match bounds with
  | some (rows, cols) => r.clamp rows cols
  | none => some r

/-- The cells of a range that lie in a grid, row by row. -/
def cellsIn (bounds : Option (UInt32 × UInt32)) (r : Range) : List Address :=
  r.cells.filter (Address.isIn bounds)

variable {bounds : Option (UInt32 × UInt32)}

theorem mem_cellsIn : a ∈ r.cellsIn bounds ↔ r.contains a = true ∧ a.isIn bounds = true := by
  rw [cellsIn, List.mem_filter, mem_cells_iff]

theorem pairwise_cellsIn (bounds : Option (UInt32 × UInt32)) (r : Range) :
    (r.cellsIn bounds).Pairwise Address.Before :=
  r.pairwise_cells.filter _

theorem cells_of_clampIn (h : r.clampIn bounds = some part) : part.cells = r.cellsIn bounds := by
  -- both lists are in row-major order, so it is enough that they have the same addresses
  refine part.pairwise_cells.eq_of_mem_iff (pairwise_cellsIn bounds r) fun a => ?_
  rw [mem_cells_iff, mem_cellsIn]
  cases bounds with
  | none =>
    cases h
    simp [Address.isIn]
  | some size => exact contains_clamp h

theorem cellsIn_of_clampIn (h : r.clampIn bounds = none) : r.cellsIn bounds = [] := by
  refine List.eq_nil_iff_forall_not_mem.2 fun a ha => ?_
  obtain ⟨hcontains, hin⟩ := mem_cellsIn.1 ha
  cases bounds with
  | none => cases h
  | some size =>
    obtain ⟨part, hpart⟩ := exists_clamp hcontains hin
    rw [clampIn, hpart] at h
    cases h

/-- The number of cells in a grid, as it is counted in 64 bits. -/
def countIn (bounds : Option (UInt32 × UInt32)) (r : Range) : Nat :=
  match r.clampIn bounds with
  | some part => part.cellCount.toNat
  | none => 0

theorem countIn_le (bounds : Option (UInt32 × UInt32)) (r : Range) :
    r.countIn bounds ≤ (r.cellsIn bounds).length := by
  unfold countIn
  cases hpart : r.clampIn bounds with
  | none => exact Nat.zero_le _
  | some part =>
    rw [← cells_of_clampIn hpart, length_cells]
    exact part.toNat_cellCount_le

end Range

end Spreadsheet

import Spreadsheet.Proofs.Address.Range

/-
  Stepping through a range.

  A step goes to the column on the right, or from the end of a row to the start
  of the next one, and never past the last line of all (`next?_eq_some_iff`). So
  stepping on from the first corner comes to an end, and it meets the cells of
  the range row by row and each of them once (`lists_spanning`). Their number is
  counted in 64 bits, which is enough for every range but the one of all
  addresses (`toNat_cellCount_eq_size_iff`).
-/

namespace Spreadsheet

namespace Range

/-- The addresses that are met from an address on, if there is one, until there is
no step left. -/
inductive Lists (r : Range) : Option Address → List Address → Prop
  | done : Lists r none []
  | step {a : Address} {rest : List Address} (h : Lists r (r.next? a) rest) : Lists r (some a) (a :: rest)

section

variable {r : Range}

/-! ## Steps -/

/-- A step leads to the next column, or from the last column to the first one of
the next row. -/
theorem next?_eq_some_iff {a b : Address} : r.next? a = some b ↔
    (a.col < r.bottomRight.col ∧ b.row = a.row ∧ b.col.toNat = a.col.toNat + 1) ∨
      (r.bottomRight.col ≤ a.col ∧ a.row < r.bottomRight.row ∧ b.row.toNat = a.row.toNat + 1 ∧
        b.col = r.topLeft.col) := by
  obtain ⟨row, col⟩ := a
  obtain ⟨row', col'⟩ := b
  simp only [next?, UInt32.lt_iff_toNat_lt, UInt32.le_iff_toNat_le]
  split
  · rename_i hcol
    have hnext := toNat_add_one hcol
    simp only [Option.some.injEq, Address.mk.injEq, ← UInt32.toNat_inj, hnext]
    omega
  · split
    · rename_i hrow
      have hnext := toNat_add_one hrow
      simp only [Option.some.injEq, Address.mk.injEq, ← UInt32.toNat_inj, hnext]
      omega
    · simp only [reduceCtorEq, false_iff]
      omega

/-! ## Runs -/

variable {first : Option Address} {as bs : List Address}

theorem Lists.unique (h : r.Lists first as) (h' : r.Lists first bs) : as = bs := by
  induction h generalizing bs with
  | done =>
    cases h'
    rfl
  | step _ ih =>
    cases h' with
    | step hrest => rw [ih hrest]

/-- A walk of some length meets as many of the addresses, or all of them. -/
theorem Lists.walk_eq_take (h : r.Lists first as) (n : Nat) : r.walk n first = as.take n := by
  induction h generalizing n with
  | done => rw [walk_none, List.take_nil]
  | step _ ih =>
    cases n with
    | zero => rfl
    | succ n => rw [walk, ih, List.take_succ_cons]

theorem lists_of_length_walk_lt {n : Nat} (h : (r.walk n first).length < n) :
    r.Lists first (r.walk n first) := by
  induction n generalizing first with
  | zero => exact absurd h (Nat.not_lt_zero _)
  | succ n ih =>
    cases first with
    | none => exact .done
    | some a => exact .step (ih (Nat.lt_of_succ_lt_succ h))

end

variable (r : Range)

theorem lists_cells : r.Lists (some r.topLeft) r.cells := by
  have hcells : r.walk (r.size + 1) (some r.topLeft) = r.cells := r.firstCells_of_size_le (Nat.le_succ _)
  rw [← hcells]
  refine lists_of_length_walk_lt ?_
  rw [hcells, length_cells]
  exact Nat.lt_succ_self _

/-! ## Counts -/

def whole : Range := spanning ⟨0, 0⟩ ⟨4294967295, 4294967295⟩

theorem eq_whole_iff : r = whole ↔ r.height = UInt32.size ∧ r.width = UInt32.size := by
  constructor
  · rintro rfl
    decide
  · rintro ⟨hheight, hwidth⟩
    have hrows := r.toNat_add_height_le
    have hcols := r.toNat_add_width_le
    have hheight' := r.toNat_add_height
    have hwidth' := r.toNat_add_width
    have hsize : UInt32.size = 4294967296 := rfl
    have hlast : (4294967295 : UInt32).toNat = 4294967295 := rfl
    have htop : r.topLeft.row = 0 := UInt32.toNat_inj.1 (by rw [UInt32.toNat_zero]; omega)
    have hleft : r.topLeft.col = 0 := UInt32.toNat_inj.1 (by rw [UInt32.toNat_zero]; omega)
    have hbottom : r.bottomRight.row = 4294967295 := UInt32.toNat_inj.1 (by rw [hlast]; omega)
    have hright : r.bottomRight.col = 4294967295 := UInt32.toNat_inj.1 (by rw [hlast]; omega)
    have htopLeft : r.topLeft = ⟨0, 0⟩ := congrArg₂ Address.mk htop hleft
    have hbottomRight : r.bottomRight = ⟨4294967295, 4294967295⟩ := congrArg₂ Address.mk hbottom hright
    rw [← r.spanning_corners, htopLeft, hbottomRight]
    rfl

/-- There is room for the number of cells of every range but the whole one. -/
theorem size_lt_iff : r.size < UInt64.size ↔ r ≠ whole := by
  have hheight := r.toNat_add_height_le
  have hwidth := r.toNat_add_width_le
  rw [ne_eq, eq_whole_iff, size]
  constructor
  · rintro h ⟨hheight, hwidth⟩
    rw [hheight, hwidth] at h
    exact absurd h (by decide)
  · intro h
    rcases Nat.lt_or_eq_of_le (show r.height ≤ UInt32.size by omega) with hless | hfull
    · exact Nat.mul_lt_mul_of_lt_of_le hless (show r.width ≤ UInt32.size by omega) (by decide)
    · exact Nat.mul_lt_mul_of_le_of_lt (Nat.le_of_eq hfull)
        (Nat.lt_of_le_of_ne (show r.width ≤ UInt32.size by omega) fun hw => h ⟨hfull, hw⟩) (by decide)

theorem toNat_cellCount_eq_size_iff : r.cellCount.toNat = r.size ↔ r ≠ whole := by
  rw [cellCount, UInt64.toNat_mul, toNat_rowCount, toNat_colCount, ← size_lt_iff]
  exact Nat.mod_eq_iff_lt (by decide)

/-! ## The cells that are met -/

/-- Stepping through the range of two corners comes to an end and meets the cells of
the range, of which each walk is a part: in row-major order all addresses in the
range and no others. They are as many as the rows times the columns, which is the
count in 64 bits unless the range is the whole one, and no step to the next column
or row passes the end of the numbers in 32 bits. -/
theorem lists_spanning (a b : Address) :
    let r := spanning a b
    (∀ as, r.Lists (some r.topLeft) as ↔ as = r.cells) ∧
    (∀ n, r.firstCells n = r.cells.take n) ∧
    r.cells.Pairwise Address.Before ∧
    (∀ c, c ∈ r.cells ↔ r.contains c = true) ∧
    r.cells.length = r.height * r.width ∧
    (r.rowCount.toNat = r.height ∧ r.colCount.toNat = r.width ∧
      (r ≠ whole → r.cellCount.toNat = r.height * r.width)) ∧
    ∀ c ∈ r.cells, ∀ d, r.next? c = some d →
      (d.row = c.row ∧ d.col.toNat = c.col.toNat + 1) ∨
        (d.row.toNat = c.row.toNat + 1 ∧ d.col = r.topLeft.col) := by
  intro r
  have hlists : ∀ as, r.Lists (some r.topLeft) as ↔ as = r.cells := by
    intro as
    constructor
    · intro h
      exact h.unique r.lists_cells
    · intro h
      rw [h]
      exact r.lists_cells
  have hstep : ∀ c ∈ r.cells, ∀ d, r.next? c = some d →
      (d.row = c.row ∧ d.col.toNat = c.col.toNat + 1) ∨
        (d.row.toNat = c.row.toNat + 1 ∧ d.col = r.topLeft.col) := by
    intro c _ d hnext
    rcases next?_eq_some_iff.1 hnext with ⟨-, hrow, hcol⟩ | ⟨-, -, hrow, hcol⟩
    · exact .inl ⟨hrow, hcol⟩
    · exact .inr ⟨hrow, hcol⟩
  exact ⟨hlists, r.lists_cells.walk_eq_take, r.pairwise_cells, fun c => mem_cells_iff, r.length_cells,
    ⟨r.toNat_rowCount, r.toNat_colCount, r.toNat_cellCount_eq_size_iff.2⟩, hstep⟩

/-- The last two columns of the last two rows, by two corners. -/
def lastBlock : Range := spanning ⟨4294967295, 4294967294⟩ ⟨4294967294, 4294967295⟩

theorem lists_spanning_last :
    lastBlock.Lists (some ⟨4294967294, 4294967294⟩)
      [⟨4294967294, 4294967294⟩, ⟨4294967294, 4294967295⟩, ⟨4294967295, 4294967294⟩,
        ⟨4294967295, 4294967295⟩] ∧
    (lastBlock ≠ whole ∧ lastBlock.cellCount.toNat = 4) ∧
    (⟨4294967294, 4294967295⟩ ∈ lastBlock.cells ∧
      lastBlock.next? ⟨4294967294, 4294967295⟩ = some ⟨4294967295, 4294967294⟩ ∧
      (4294967295 : UInt32).toNat = (4294967294 : UInt32).toNat + 1) := by
  obtain ⟨hlists, -, -, -, -, ⟨-, -, hcount⟩, hstep⟩ :=
    lists_spanning ⟨4294967295, 4294967294⟩ ⟨4294967294, 4294967295⟩
  have hwhole : lastBlock ≠ whole := by decide
  have hmem : ⟨4294967294, 4294967295⟩ ∈ lastBlock.cells := by decide
  have hnext : lastBlock.next? ⟨4294967294, 4294967295⟩ = some ⟨4294967295, 4294967294⟩ := by decide
  refine ⟨(hlists _).2 (by decide), ⟨hwhole, hcount hwhole⟩, hmem, hnext, ?_⟩
  rcases hstep _ hmem _ hnext with ⟨hrow, -⟩ | ⟨hrow, -⟩
  · exact absurd hrow (by decide)
  · exact hrow

end Range

end Spreadsheet

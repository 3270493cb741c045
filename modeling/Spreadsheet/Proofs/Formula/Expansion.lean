import Spreadsheet.Proofs.Formula.Parts
import Spreadsheet.Proofs.Formula.Reference

/-
  A range is the list of its cells.

  An argument that names a range stands for the values of its cells in the grid,
  row by row. They are looked up in one run, and the first fault ends it. A
  single cell takes another way: its name is no range, so it is evaluated as an
  expression, which turns out to be a reference. Both come to a look at the cell
  with the same cells in progress and the cache that the looks before left, so
  expanding the range is expanding the names of its cells one after another
  (`expand_range`).
-/

namespace Spreadsheet.Formula

/-- Two corners in any order expand to the cells of the range they span, unless
these are too many. -/
theorem Scope.expand_corners (s : Scope) {a b : Address}
    (hsize : ((Range.spanning a b).cellsIn s.ctx.bounds).length ≤ s.ctx.options.maxRangeCells) :
    s.expand (a.name ++ ':' :: b.name) =
      ((Range.spanning a b).cellsIn s.ctx.bounds).mapM fun d => s.cell d.label := by
  unfold expand
  dsimp only
  rw [Range.trim_corners, isRangeForm_name, if_pos rfl, Range.ofText_corners]
  dsimp only
  rw [rangeCells_eq, if_neg (Nat.not_lt.2 ((Range.countIn_le _ _).trans hsize))]

namespace Evaluator

/-- Expands arguments one after another and puts their values in a row. The
first fault ends it. -/
def expandEach (ctx : Context) (ev : Evaluator) : List String → Except Fault (List Value) × Evaluator
  | [] => (.ok [], ev)
  | argument :: rest =>
    match ev.expand ctx argument with
    | (.error fault, ev) => (.error fault, ev)
    | (.ok values, ev) =>
      match expandEach ctx ev rest with
      | (.error fault, ev) => (.error fault, ev)
      | (.ok more, ev) => (.ok (values ++ more), ev)

variable {ctx : Context} {ev : Evaluator}

theorem expandEach_cons (ctx : Context) (ev : Evaluator) (argument : String) (rest : List String) :
    expandEach ctx ev (argument :: rest) = match ev.expand ctx argument with
      | (.error fault, ev) => (.error fault, ev)
      | (.ok values, ev) => match expandEach ctx ev rest with
        | (.error fault, ev) => (.error fault, ev)
        | (.ok more, ev) => (.ok (values ++ more), ev) := rfl

theorem run_of_ok {α : Type} {x : Run α} {a : α} {m : Memory} (h : x ev.toMemory = .ok a m) :
    ev.run x = (.ok a, { ev with toMemory := m }) := by
  unfold run
  rw [h]

theorem run_of_error {α : Type} {x : Run α} {fault : Fault} {m : Memory} (h : x ev.toMemory = .error fault m) :
    ev.run x = (.error fault, { ev with toMemory := m }) := by
  unfold run
  rw [h]

theorem run_bind {α β : Type} (ev : Evaluator) (x : Run α) (f : α → Run β) :
    ev.run (x >>= f) = match ev.run x with
      | (.ok a, ev) => ev.run (f a)
      | (.error fault, ev) => (.error fault, ev) := by
  unfold run
  rw [bind_apply]
  cases x ev.toMemory <;> rfl

theorem expand_label (hdepth : ev.depth < levelLimit) (a : Address) :
    ev.expand ctx a.label = ev.run (do return [← (ev.scope ctx).cell a.label]) := by
  have ha := isAddressForm_name a
  obtain ⟨n, hn⟩ : ∃ n, levelLimit - ev.depth = n + 1 := ⟨levelLimit - ev.depth - 1, by omega⟩
  have hexpr : (ev.scope ctx).expr a.name = (ev.scope ctx).cell a.label := by
    calc (ev.scope ctx).expr a.name
        = levels ctx (ev.formulaOf ctx) (levelLimit - ev.depth) a.name := rfl
      _ = (⟨ctx, levels ctx (ev.formulaOf ctx) n, ev.formulaOf ctx⟩ : Scope).cell a.label := by
        rw [hn, levels_name]
      _ = (ev.scope ctx).cell a.label := rfl
  unfold expand Scope.expand
  dsimp only
  rw [Address.label_toList, trim_of_isAddressForm ha, isRangeForm_of_isAddressForm ha, hexpr]
  rfl

theorem expandEach_labels (hdepth : ev.depth < levelLimit) (cells : List Address) :
    ev.expandEach ctx (cells.map Address.label) =
      ev.run (cells.mapM fun a => (ev.scope ctx).cell a.label) := by
  induction cells generalizing ev with
  | nil => rfl
  | cons a cells ih =>
    rw [List.map_cons, expandEach_cons, expand_label hdepth, List.mapM_cons, run_bind, run_bind]
    cases hlook : (ev.scope ctx).cell a.label ev.toMemory with
    | error fault m => rw [run_of_error hlook]
    | ok v m =>
      obtain ⟨outcome, ev', hlooks⟩ : ∃ outcome ev', run { ev with toMemory := m }
          (cells.mapM fun a => (ev.scope ctx).cell a.label) = (outcome, ev') := ⟨_, _, rfl⟩
      -- the scope hangs on the path and the depth, and these are the same
      have hrest : expandEach ctx { ev with toMemory := m } (cells.map Address.label) = (outcome, ev') :=
        (@ih { ev with toMemory := m } hdepth).trans hlooks
      have hone : run { ev with toMemory := m } (pure [v]) = (.ok [v], { ev with toMemory := m }) := rfl
      rw [run_of_ok hlook]
      dsimp only
      rw [hone]
      dsimp only
      rw [hrest, run_bind, hlooks]
      cases outcome <;> rfl

/-- A range of more than one cell expands like the names of its cells in the
grid, unless these are too many. -/
theorem expand_label_range {r : Range} (hdepth : ev.depth < levelLimit)
    (hcorners : r.topLeft ≠ r.bottomRight)
    (hsize : (r.cellsIn ctx.bounds).length ≤ ctx.options.maxRangeCells) :
    ev.expand ctx r.label = ev.expandEach ctx ((r.cellsIn ctx.bounds).map Address.label) := by
  have hlooks : (ev.scope ctx).expand r.label.toList =
      (r.cellsIn ctx.bounds).mapM fun a => (ev.scope ctx).cell a.label := by
    rw [← r.spanning_corners] at hsize
    rw [Range.label, String.toList_ofList, Range.name, if_neg hcorners, Scope.expand_corners _ hsize,
      r.spanning_corners]
    rfl
  rw [expandEach_labels hdepth, ← hlooks]
  rfl

end Evaluator

open Evaluator (fresh)

/-- A range is the list of its cells. On a fresh evaluator, a range of more than
one cell has the values, or the first fault, of its cells in the grid when their
names are expanded one after another, and leaves the same cache; these cells are
those that lie in the range and in the grid, each of them once and row by row,
which is the order of a walk through the part in the grid. A range outside the
grid has no values, as has any range in a grid without rows or columns, and
whenever clamping subtracts from the size of the grid there is one to subtract. -/
theorem expand_range (ctx : Context) {r : Range} (hcorners : r.topLeft ≠ r.bottomRight)
    (hsize : (r.cellsIn ctx.bounds).length ≤ ctx.options.maxRangeCells) :
    fresh.expand ctx r.label = fresh.expandEach ctx ((r.cellsIn ctx.bounds).map Address.label) ∧
    (r.cellsIn ctx.bounds).Pairwise Address.Before ∧
    (∀ a, a ∈ r.cellsIn ctx.bounds ↔ r.contains a = true ∧ a.isIn ctx.bounds = true) ∧
    (∀ part, r.clampIn ctx.bounds = some part → part.firstCells part.size = r.cellsIn ctx.bounds) ∧
    ((∀ a, r.contains a = true → a.isIn ctx.bounds = false) → fresh.expand ctx r.label = (.ok [], fresh)) ∧
    ∀ rows cols, ctx.bounds = some (rows, cols) →
      (rows = 0 ∨ cols = 0 → fresh.expand ctx r.label = (.ok [], fresh)) ∧
      ∀ part, r.clamp rows cols = some part →
        (rows - 1).toNat + 1 = rows.toNat ∧ (cols - 1).toNat + 1 = cols.toNat := by
  have hexpand : fresh.expand ctx r.label = fresh.expandEach ctx ((r.cellsIn ctx.bounds).map Address.label) :=
    Evaluator.expand_label_range (by decide) hcorners hsize
  have houtside : (∀ a, r.contains a = true → a.isIn ctx.bounds = false) →
      fresh.expand ctx r.label = (.ok [], fresh) := by
    intro h
    have hnone : r.cellsIn ctx.bounds = [] := by
      refine List.eq_nil_iff_forall_not_mem.2 fun a ha => ?_
      obtain ⟨hcontains, hin⟩ := Range.mem_cellsIn.1 ha
      rw [h a hcontains] at hin
      cases hin
    rw [hexpand, hnone]
    rfl
  refine ⟨hexpand, Range.pairwise_cellsIn _ r, fun a => Range.mem_cellsIn, fun part hpart => ?_, houtside,
    fun rows cols hbounds => ⟨fun hzero => houtside fun a _ => ?_, fun part hpart => ?_⟩⟩
  · rw [part.firstCells_size, Range.cells_of_clampIn hpart]
  · rw [hbounds]
    rcases hzero with rfl | rfl <;> simp [Address.isIn]
  · exact Range.toNat_of_clamp hpart

/-- A grid of two rows and two columns whose last cell fails. -/
def corner : Context where
  resolve address := if address = "B1" then some "x" else if address = "B2" then some "=NOPE()" else none
  bounds := some (2, 2)
  clock := Moment.epoch
  options := .default

/-- A range that goes beyond the grid. -/
theorem expand_range_corner :
    fresh.expand corner "B1:C3" = fresh.expandEach corner ["B1", "B2"] := by
  have hcells : ((Range.spanning ⟨0, 1⟩ ⟨2, 2⟩).cellsIn corner.bounds).map Address.label = ["B1", "B2"] := by
    decide +kernel
  have hlabel : (Range.spanning ⟨0, 1⟩ ⟨2, 2⟩).label = "B1:C3" := by decide +kernel
  rw [← hcells, ← hlabel]
  exact (expand_range corner (r := .spanning ⟨0, 1⟩ ⟨2, 2⟩) (by decide) (by decide)).1

end Spreadsheet.Formula

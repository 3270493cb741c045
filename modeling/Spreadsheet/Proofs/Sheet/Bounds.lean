import Mathlib.Data.List.Infix
import Spreadsheet.Proofs.Sheet.Steps

/-
  The stored cells and the size of the grid.

  A write outside the grid is refused, and a deletion moves the cells and the end
  of the grid alike. An insertion does so too as long as there is room: the size
  stops at the greatest count, while a cell may still move to the line of that
  number, the last line, which no grid has. This is the one way out of the grid
  (`within_after`), and no cell gets further out than that by one line
  (`Reachable.bordered`).
-/

namespace Spreadsheet

/-- The line with the greatest number. As many lines as that are the most a grid
has, so none has this one. -/
def lastLine : UInt32 := 4294967295

theorem toNat_le_lastLine (n : UInt32) : n.toNat ≤ lastLine.toNat := by
  have := n.toNat_lt
  show n.toNat ≤ 4294967295
  omega

theorem not_lastLine_lt (n : UInt32) : ¬ lastLine < n := by
  rw [UInt32.lt_iff_toNat_lt]
  exact Nat.not_lt.2 (toNat_le_lastLine n)

theorem toNat_saturatingAdd (x y : UInt32) :
    (saturatingAdd x y).toNat = min (x.toNat + y.toNat) lastLine.toNat := by
  have hlast : lastLine.toNat = 4294967295 := rfl
  have hx := x.toNat_lt
  have hy := y.toNat_lt
  unfold saturatingAdd
  cases hsum : checkedAdd x y with
  | some z =>
    have := toNat_of_checkedAdd hsum
    have := z.toNat_lt
    show z.toNat = _
    omega
  | none =>
    have hsize : ¬ x.toNat + y.toNat < UInt32.size := by
      intro hlt
      rw [checkedAdd, if_pos hlt] at hsum
      cases hsum
    rw [UInt32.size] at hsize
    show lastLine.toNat = _
    omega

namespace Sheet

/-! ## Relations between lines and sizes -/

/-- Whether the coordinates of every stored cell are in a relation to the size of
the sheet. -/
def Fits (r : UInt32 → UInt32 → Prop) (s : Sheet) : Prop :=
  ∀ (a : Address) (cell : Cell), s.cells[a]? = some cell → r a.row s.rows ∧ r a.col s.cols

/-- Whether structural edits lead from one relation between a line and the number
of lines to another, which is a weaker one. -/
structure Carries (q r : UInt32 → UInt32 → Prop) : Prop where
  weaken : ∀ {line lines}, q line lines → r line lines
  opened : ∀ {first count line lines moved}, q line lines → opened first count line = some moved →
    r moved (saturatingAdd lines count)
  closed : ∀ {first count line lines moved}, first < lines → q line lines →
    closed first (min count (lines - first)) line = some moved →
    r moved (lines - min count (lines - first))

section

variable {q r : UInt32 → UInt32 → Prop} {s t : Sheet}

theorem exists_of_mapRow {f : UInt32 → Option UInt32} (hf : ∀ x y z, f x = some z → f y = some z → x = y)
    {b : Address} {cell : Cell} (h : (s.moved (Address.mapRow? f)).cells[b]? = some cell) :
    ∃ a : Address, s.cells[a]? = some cell ∧ f a.row = some b.row ∧ a.col = b.col := by
  obtain ⟨a, ha, hcell⟩ := Grid.exists_of_getElem?_moved (mapRow_injective hf) h
  obtain ⟨row, hrow, rfl⟩ := Option.map_eq_some_iff.1 ha
  exact ⟨a, hcell, hrow, rfl⟩

theorem exists_of_mapCol {f : UInt32 → Option UInt32} (hf : ∀ x y z, f x = some z → f y = some z → x = y)
    {b : Address} {cell : Cell} (h : (s.moved (Address.mapCol? f)).cells[b]? = some cell) :
    ∃ a : Address, s.cells[a]? = some cell ∧ f a.col = some b.col ∧ a.row = b.row := by
  obtain ⟨a, ha, hcell⟩ := Grid.exists_of_getElem?_moved (mapCol_injective hf) h
  obtain ⟨col, hcol, rfl⟩ := Option.map_eq_some_iff.1 ha
  exact ⟨a, hcell, hcol, rfl⟩

/-- A structural edit moves lines one way; along the other nothing changes. -/
theorem Fits.restructured (hqr : Carries q r) (h : s.Fits q) {op : Operation}
    (ht : s.restructured op = ⟨t, true⟩) : t.Fits r := by
  cases op with
  | insertRows first count =>
    obtain ⟨-, rfl⟩ := ite_refused_eq.1 ht
    intro b cell hcell
    obtain ⟨a, ha, hrow, hcol⟩ := exists_of_mapRow (fun _ _ _ => opened_injective) hcell
    exact ⟨hqr.opened (h a cell ha).1 hrow, hqr.weaken (hcol ▸ (h a cell ha).2)⟩
  | insertCols first count =>
    obtain ⟨-, rfl⟩ := ite_refused_eq.1 ht
    intro b cell hcell
    obtain ⟨a, ha, hcol, hrow⟩ := exists_of_mapCol (fun _ _ _ => opened_injective) hcell
    exact ⟨hqr.weaken (hrow ▸ (h a cell ha).1), hqr.opened (h a cell ha).2 hcol⟩
  | deleteRows first count =>
    obtain ⟨hfirst, rfl⟩ := ite_refused_eq.1 ht
    have hfirst := UInt32.not_le.1 hfirst
    intro b cell hcell
    obtain ⟨a, ha, hrow, hcol⟩ :=
      exists_of_mapRow (fun _ _ _ => closed_injective (toNat_add_min_lt count hfirst)) hcell
    exact ⟨hqr.closed hfirst (h a cell ha).1 hrow, hqr.weaken (hcol ▸ (h a cell ha).2)⟩
  | deleteCols first count =>
    obtain ⟨hfirst, rfl⟩ := ite_refused_eq.1 ht
    have hfirst := UInt32.not_le.1 hfirst
    intro b cell hcell
    obtain ⟨a, ha, hcol, hrow⟩ :=
      exists_of_mapCol (fun _ _ _ => closed_injective (toNat_add_min_lt count hfirst)) hcell
    exact ⟨hqr.weaken (hrow ▸ (h a cell ha).1), hqr.closed hfirst (h a cell ha).2 hcol⟩
  | _ => cases ht

theorem inBounds_iff {a : Address} : s.inBounds a = true ↔ a.row < s.rows ∧ a.col < s.cols := by
  simp [inBounds]

/-- Cells are written in the grid only, so what holds of its lines holds of the
lines of the cells until lines are moved. -/
theorem steady_fits (hr : ∀ line lines, line < lines → r line lines) : Steady (Fits r) where
  setCell := by
    intro s a value formula h hin
    obtain ⟨hrow, hcol⟩ := inBounds_iff.1 hin
    rw [Sheet.setCell, if_pos hin]
    intro b cell hcell
    rw [Std.ExtTreeMap.getElem?_insert] at hcell
    split at hcell
    · rename_i hab
      rw [← Std.LawfulEqOrd.eq_of_compare hab]
      exact ⟨hr _ _ hrow, hr _ _ hcol⟩
    · exact h b cell hcell
  setResult := by
    intro s a before value h hbefore hformula b cell hcell
    rw [Std.ExtTreeMap.getElem?_insert] at hcell
    split at hcell
    · rename_i hab
      rw [← Std.LawfulEqOrd.eq_of_compare hab]
      exact h a before hbefore
    · exact h b cell hcell
  clear := by
    intro s first last h b cell hcell
    simp only [Sheet.clear, Std.ExtTreeMap.getElem?_map] at hcell
    obtain ⟨before, hbefore, -⟩ := Option.map_eq_some_iff.1 hcell
    exact h b before hbefore
  listeners _ _ h := h

theorem Fits.run (hr : ∀ line lines, line < lines → r line lines) (hqr : Carries q r) (h : s.Fits q)
    (clock : Clock) (op : Operation) : (op.run clock s).sheet.Fits r :=
  (steady_fits hr).run (fun a cell ha => ⟨hqr.weaken (h a cell ha).1, hqr.weaken (h a cell ha).2⟩)
    clock op fun _ ht => h.restructured hqr ht

end

/-! ## Cells in the grid -/

def Within (s : Sheet) : Prop :=
  ∀ (a : Address) (cell : Cell), s.cells[a]? = some cell → s.inBounds a = true

/-- Whether no stored cell stands on the last line of either way. -/
def SparesLastLine (s : Sheet) : Prop :=
  ∀ (a : Address) (cell : Cell), s.cells[a]? = some cell → a.row ≠ lastLine ∧ a.col ≠ lastLine

theorem toNat_sub_min {first lines : UInt32} (count : UInt32) (h : first < lines) :
    (lines - min count (lines - first)).toNat =
      lines.toNat - (min count (lines - first)).toNat := by
  have hsum := toNat_add_min_le count h
  refine UInt32.toNat_sub_of_le lines _ ?_
  rw [UInt32.le_iff_toNat_le]
  omega

theorem carries_le : Carries (· ≤ ·) (· ≤ ·) where
  weaken h := h
  opened := by
    intro first count line lines moved h hmoved
    have hlast := toNat_le_lastLine moved
    rw [UInt32.le_iff_toNat_le] at h
    rw [UInt32.le_iff_toNat_le, toNat_saturatingAdd]
    have := opened_eq_some hmoved
    omega
  closed := by
    intro first count line lines moved hfirst h hmoved
    have hsum := toNat_add_min_le count hfirst
    rw [UInt32.le_iff_toNat_le] at h
    rw [UInt32.le_iff_toNat_le, toNat_sub_min count hfirst]
    have := closed_eq_some (toNat_add_min_lt count hfirst) hmoved
    omega

theorem carries_lt : Carries (· < ·) (fun line lines => line < lines ∨ line = lastLine) where
  weaken h := .inl h
  opened := by
    intro first count line lines moved h hmoved
    have hlast := toNat_le_lastLine moved
    rw [UInt32.lt_iff_toNat_lt] at h
    rw [UInt32.lt_iff_toNat_lt, ← UInt32.toNat_inj, toNat_saturatingAdd]
    have := opened_eq_some hmoved
    omega
  closed := by
    intro first count line lines moved hfirst h hmoved
    have hsum := toNat_add_min_le count hfirst
    rw [UInt32.lt_iff_toNat_lt] at h
    rw [UInt32.lt_iff_toNat_lt, toNat_sub_min count hfirst]
    have := closed_eq_some (toNat_add_min_lt count hfirst) hmoved
    omega

theorem fits_ofBounds (r : UInt32 → UInt32 → Prop) (rows cols : UInt32) : (ofBounds rows cols).Fits r := by
  intro a cell hcell
  simp [ofBounds] at hcell

theorem Reachable.bordered {s : Sheet} (h : s.Reachable) : s.Fits (· ≤ ·) := by
  induction h with
  | ofBounds rows cols => exact fits_ofBounds _ rows cols
  | run _ clock op ih => exact ih.run (fun _ _ => UInt32.le_of_lt) carries_le clock op

theorem within_iff {s : Sheet} : s.Within ↔ s.Fits (· < ·) := by
  simp only [Within, Fits, inBounds_iff]

theorem Initial.within {s : Sheet} (h : s.Initial) : s.Within :=
  within_iff.2 ((steady_fits fun _ _ hlt => hlt).initial (fits_ofBounds _) h)

theorem Within.sparesLastLine {s : Sheet} (h : s.Within) : s.SparesLastLine := by
  intro a cell hcell
  obtain ⟨hrow, hcol⟩ := inBounds_iff.1 (h a cell hcell)
  exact ⟨fun heq => not_lastLine_lt _ (heq ▸ hrow), fun heq => not_lastLine_lt _ (heq ▸ hcol)⟩

/-- An operation takes a cell out of the grid exactly if it moves one to the last
line. -/
theorem Within.run {s : Sheet} (h : s.Within) (clock : Clock) (op : Operation) :
    (op.run clock s).sheet.Within ↔ (op.run clock s).sheet.SparesLastLine := by
  constructor
  · exact Within.sparesLastLine
  · intro hspares a cell hcell
    obtain ⟨hrow, hcol⟩ := (within_iff.1 h).run (fun _ _ => .inl) carries_lt clock op a cell hcell
    obtain ⟨hlastRow, hlastCol⟩ := hspares a cell hcell
    exact inBounds_iff.2 ⟨hrow.resolve_right hlastRow, hcol.resolve_right hlastCol⟩

/-- All the way through a run every cell stays in the grid exactly if none gets
to the last line. -/
theorem Within.prefixes {s : Sheet} (h : s.Within) (steps : List (Clock × Operation)) :
    (∀ before, before <+: steps → (s.after before).Within) ↔
      ∀ before, before <+: steps → (s.after before).SparesLastLine := by
  constructor
  · exact fun hwithin before hbefore => (hwithin before hbefore).sparesLastLine
  · intro hspares before hbefore
    induction steps generalizing s before with
    | nil => exact List.prefix_nil.1 hbefore ▸ h
    | cons step steps ih =>
      rcases List.prefix_cons_iff.1 hbefore with rfl | ⟨rest, rfl, hrest⟩
      · exact h
      · have hstep : (step.2.run step.1 s).sheet.Within :=
          (h.run step.1 step.2).2 (hspares [step] (List.cons_prefix_cons.2 ⟨rfl, List.nil_prefix⟩))
        exact ih hstep (fun before hbefore => hspares (step :: before)
          (List.cons_prefix_cons.2 ⟨rfl, hbefore⟩)) rest hrest

/-- Whatever is done to a sheet, no cell stands further out of the grid than by one
line; and all cells stay in the grid all the way through exactly if none gets to
the last line. -/
theorem within_after {s : Sheet} (hs : s.Initial) (steps : List (Clock × Operation)) :
    (∀ (a : Address) (cell : Cell), (s.after steps).cells[a]? = some cell →
      a.row ≤ (s.after steps).rows ∧ a.col ≤ (s.after steps).cols) ∧
    ((∀ before, before <+: steps → (s.after before).Within) ↔
      ∀ before, before <+: steps → (s.after before).SparesLastLine) :=
  ⟨(hs.reachable.after steps).bordered, hs.within.prefixes steps⟩

/-- A text is written into the first cell of a row, and a row is inserted there. -/
def pushing (row : UInt32) : List (Clock × Operation) :=
  [(.epoch, .setCell ⟨row, 0⟩ (.text "x") none), (.epoch, .insertRows row 1)]

/-- The number of rows cannot grow here any more, but there is still one line for
the cell to move to in the grid. -/
theorem within_after_pushing : ((ofBounds 4294967295 1).after (pushing 4294967293)).Within := by
  have hspares : ∀ before ∈ (pushing 4294967293).inits,
      ∀ stored ∈ ((ofBounds 4294967295 1).after before).cells.toList,
        stored.1.row ≠ lastLine ∧ stored.1.col ≠ lastLine := by
    decide +kernel
  obtain ⟨-, hwithin⟩ := within_after (.ofBounds 4294967295 1) (pushing 4294967293)
  refine hwithin.2 (fun before hbefore a cell hcell => ?_) _ (List.prefix_refl _)
  exact hspares before ((List.mem_inits _ _).2 hbefore) (a, cell)
    (Std.ExtTreeMap.mem_toList_iff_getElem?_eq_some.2 hcell)

/-- From the last row of the grid the cell moves out of it. -/
theorem not_within_after_pushing :
    ∃ cell, ((ofBounds 4294967295 1).after (pushing 4294967294)).cells[(⟨4294967295, 0⟩ : Address)]? =
      some cell ∧
    ((ofBounds 4294967295 1).after (pushing 4294967294)).inBounds ⟨4294967295, 0⟩ = false := by
  have hstored : ((ofBounds 4294967295 1).after
      (pushing 4294967294)).cells[(⟨4294967295, 0⟩ : Address)]?.isSome = true := by
    decide +kernel
  obtain ⟨cell, hcell⟩ := Option.isSome_iff_exists.1 hstored
  exact ⟨cell, hcell, by decide +kernel⟩

end Sheet

end Spreadsheet

import Spreadsheet.Proofs.Sheet.Bounds
import Spreadsheet.Proofs.Sheet.Moves

/-
  Structural edits as shifts of lines.

  What an insertion or a deletion does is said by the number of lines alone: it is
  refused, or it says where every line goes and how many lines there are then
  (`Shift`). Shifts compose, and a sheet that is shifted twice along an axis is
  shifted by the composition (`Axis.shifted_shifted`). So

    1. an edit of many lines is as many edits of one line, because the shifts
       compose to it (`insertion_andThen`, `effect_deletion_add`), whatever is pushed
       over the end or clipped on the way (`lines_one_by_one`);
    2. an edit of rows and an edit of columns may change places, because neither
       sees what the other changes (`Axis.shifted_comm`, `row_col_edits_commute`).
-/

namespace Spreadsheet

/-! ## Shifts -/

/-- Where the lines of a grid go, if they stay in it, and how many lines there are
then. No two lines go to the same place. -/
@[ext]
structure Shift where
  lines : UInt32
  image : UInt32 → Option UInt32
  injective : ∀ x y z, image x = some z → image y = some z → x = y

namespace Shift

def stay (lines : UInt32) : Shift where
  lines := lines
  image := some
  injective _ _ _ hx hy := Option.some.inj (hx.trans hy.symm)

def andThen (f g : Shift) : Shift where
  lines := g.lines
  image x := (f.image x).bind g.image
  injective x y z hx hy := by
    obtain ⟨x', hx, hxz⟩ := Option.bind_eq_some_iff.1 hx
    obtain ⟨y', hy, hyz⟩ := Option.bind_eq_some_iff.1 hy
    exact f.injective x y x' hx (g.injective x' y' z hxz hyz ▸ hy)

theorem andThen_stay (f : Shift) : f.andThen (stay f.lines) = f :=
  Shift.ext rfl (funext fun x => Option.bind_fun_some (f.image x))

end Shift

/-- What an edit does to the lines of a grid, by how many there are. There is no
shift if the edit is refused. -/
abbrev LineEdit := UInt32 → Option Shift

/-- Inserts lines before a line, which may be the one after the last. -/
def insertion (first count : UInt32) : LineEdit := fun lines =>
  if first > lines then none
  else some ⟨saturatingAdd lines count, opened first count, fun _ _ _ => opened_injective⟩

/-- Deletes lines from a line on, as many of them as there are. -/
def deletion (first count : UInt32) : LineEdit := fun lines =>
  if h : first ≥ lines then none
  else some ⟨lines - min count (lines - first), closed first (min count (lines - first)),
    fun _ _ _ => closed_injective (Sheet.toNat_add_min_lt count (UInt32.not_le.1 h))⟩

namespace LineEdit

def andThen (e e' : LineEdit) : LineEdit := fun lines => do
  let f ← e lines
  let g ← e' f.lines
  return f.andThen g

/-- What the edit does to the lines, which is nothing if it is refused. -/
def effect (e : LineEdit) (lines : UInt32) : Shift := (e lines).getD (.stay lines)

end LineEdit

/-! ## Many lines are one line after another -/

section

variable {first n m : UInt32}

theorem opened_zero (first line : UInt32) : opened first 0 line = some line := by
  unfold opened checkedAdd
  split
  · rw [if_pos (by simpa using line.toNat_lt), UInt32.add_zero]
  · rfl

theorem closed_zero (first line : UInt32) : closed first 0 line = some line := by
  by_cases hline : line < first <;> simp [closed, hline]

theorem sub_sub_eq (line n m : UInt32) : line - n - m = line - (n + m) := by
  simp only [UInt32.sub_eq_add_neg, UInt32.neg_add, UInt32.add_assoc]

variable (hsum : n.toNat + m.toNat < UInt32.size)

include hsum

theorem toNat_add_of_lt : (n + m).toNat = n.toNat + m.toNat := by
  rw [UInt32.toNat_add]
  exact Nat.mod_eq_of_lt hsum

/-- A line that goes over the end does so in one step or in two. -/
theorem checkedAdd_checkedAdd (line : UInt32) :
    (checkedAdd line n).bind (checkedAdd · m) = checkedAdd line (n + m) := by
  have htotal := toNat_add_of_lt hsum
  by_cases hn : line.toNat + n.toNat < UInt32.size
  · have hline := toNat_add_of_lt hn
    rw [checkedAdd, if_pos hn, Option.bind_some, checkedAdd, checkedAdd, hline, htotal, UInt32.add_assoc,
      Nat.add_assoc]
  · rw [checkedAdd, if_neg hn, Option.bind_none, checkedAdd, if_neg (by omega)]

theorem opened_opened (first line : UInt32) :
    (opened first n line).bind (opened first m) = opened first (n + m) line := by
  by_cases hline : first ≤ line
  · -- a line that is moved is moved again
    have hagain : ∀ moved, checkedAdd line n = some moved → opened first m moved = checkedAdd moved m := by
      intro moved hmoved
      refine if_pos ?_
      rw [UInt32.le_iff_toNat_le] at hline ⊢
      have := toNat_of_checkedAdd hmoved
      omega
    rw [opened, opened, if_pos hline, if_pos hline, ← checkedAdd_checkedAdd hsum]
    exact Option.bind_congr hagain
  · rw [opened, opened, if_neg hline, if_neg hline, Option.bind_some, opened, if_neg hline]

theorem saturatingAdd_saturatingAdd (lines : UInt32) :
    saturatingAdd (saturatingAdd lines n) m = saturatingAdd lines (n + m) := by
  rw [← UInt32.toNat_inj, toNat_saturatingAdd, toNat_saturatingAdd, toNat_saturatingAdd,
    toNat_add_of_lt hsum]
  omega

omit hsum in
theorem closed_eq_of_lt (hend : first.toNat + n.toNat < UInt32.size) (line : UInt32) :
    closed first n line = if line.toNat < first.toNat then some line
      else if line.toNat < first.toNat + n.toNat then none else some (line - n) := by
  simp only [closed, UInt32.lt_iff_toNat_lt, toNat_add_of_lt hend]

omit hsum in
theorem closed_closed (hend : first.toNat + n.toNat + m.toNat < UInt32.size) (line : UInt32) :
    (closed first n line).bind (closed first m) = closed first (n + m) line := by
  have htotal : (n + m).toNat = n.toNat + m.toNat := toNat_add_of_lt (by omega)
  have hm : first.toNat + m.toNat < UInt32.size := by omega
  rw [closed_eq_of_lt (by omega), closed_eq_of_lt (by omega), htotal]
  by_cases hbefore : line.toNat < first.toNat
  · rw [if_pos hbefore, if_pos hbefore, Option.bind_some, closed_eq_of_lt hm, if_pos hbefore]
  · by_cases hgone : line.toNat < first.toNat + n.toNat
    · rw [if_neg hbefore, if_neg hbefore, if_pos hgone, Option.bind_none, if_pos (by omega)]
    · -- behind the lines of the first deletion, into whose place those of the second have come
      have hmoved : (line - n).toNat = line.toNat - n.toNat :=
        UInt32.toNat_sub_of_le line n (by rw [UInt32.le_iff_toNat_le]; omega)
      rw [if_neg hbefore, if_neg hbefore, if_neg hgone, Option.bind_some, closed_eq_of_lt hm, hmoved,
        if_neg (by omega), sub_sub_eq]
      refine if_congr ?_ rfl rfl
      omega

end

section

variable {first n m lines : UInt32}

theorem insertion_eq_some (count : UInt32) (hfirst : first ≤ lines) :
    ∃ f, insertion first count lines = some f ∧ f.lines = saturatingAdd lines count ∧
      f.image = opened first count :=
  ⟨_, if_neg (UInt32.not_lt.2 hfirst), rfl, rfl⟩

theorem le_saturatingAdd (lines n : UInt32) : lines ≤ saturatingAdd lines n := by
  have := toNat_le_lastLine lines
  rw [UInt32.le_iff_toNat_le, toNat_saturatingAdd]
  omega

theorem insertion_zero (hfirst : first ≤ lines) : insertion first 0 lines = some (.stay lines) := by
  obtain ⟨f, hf, hlines, himage⟩ := insertion_eq_some 0 hfirst
  rw [hf, Option.some.injEq]
  refine Shift.ext ?_ (himage.trans (funext (opened_zero first)))
  rw [hlines, ← UInt32.toNat_inj, toNat_saturatingAdd]
  exact Nat.min_eq_left (toNat_le_lastLine lines)

theorem insertion_andThen (hsum : n.toNat + m.toNat < UInt32.size) (first : UInt32) :
    (insertion first n).andThen (insertion first m) = insertion first (n + m) := by
  funext lines
  by_cases hfirst : first ≤ lines
  · obtain ⟨f, hf, hflines, hfimage⟩ := insertion_eq_some n hfirst
    have hstill : first ≤ f.lines := hflines ▸ UInt32.le_trans hfirst (le_saturatingAdd lines n)
    obtain ⟨g, hg, hglines, hgimage⟩ := insertion_eq_some m hstill
    obtain ⟨k, hk, hklines, hkimage⟩ := insertion_eq_some (n + m) hfirst
    rw [LineEdit.andThen, hf, hk]
    show (insertion first m f.lines).bind (fun g => some (f.andThen g)) = some k
    rw [hg, Option.bind_some, Option.some.injEq]
    refine Shift.ext ?_ (funext fun line => ?_)
    · show g.lines = k.lines
      rw [hglines, hflines, hklines, saturatingAdd_saturatingAdd hsum]
    · show (f.image line).bind g.image = k.image line
      rw [hfimage, hgimage, hkimage, opened_opened hsum]
  · have hrefused : ∀ count, insertion first count lines = none := fun count =>
      if_pos (UInt32.not_le.1 hfirst)
    rw [LineEdit.andThen, hrefused, hrefused]
    rfl

theorem effect_deletion_of_lt (count : UInt32) (hfirst : lines < first) :
    (deletion first count).effect lines = .stay lines := by
  rw [LineEdit.effect, deletion, dif_pos (UInt32.le_of_lt hfirst), Option.getD_none]

/-- Right behind the grid there is no line to delete, and so a deletion that is
refused there is no exception. -/
theorem effect_deletion (count : UInt32) (hfirst : first ≤ lines) :
    ((deletion first count).effect lines).lines = lines - min count (lines - first) ∧
      ((deletion first count).effect lines).image = closed first (min count (lines - first)) := by
  by_cases hbehind : lines ≤ first
  · obtain rfl : first = lines := UInt32.le_antisymm hfirst hbehind
    have hnone : min count (first - first) = 0 := by
      rw [UInt32.sub_self, ← UInt32.toNat_inj, Range.toNat_min]
      exact Nat.min_zero _
    rw [LineEdit.effect, deletion, dif_pos hbehind, Option.getD_none, hnone, UInt32.sub_zero]
    exact ⟨rfl, funext fun line => (closed_zero first line).symm⟩
  · rw [LineEdit.effect, deletion, dif_neg hbehind]
    exact ⟨rfl, rfl⟩

theorem effect_deletion_zero (first lines : UInt32) : (deletion first 0).effect lines = .stay lines := by
  by_cases hfirst : first ≤ lines
  · obtain ⟨hlines, himage⟩ := effect_deletion 0 hfirst
    have hnone : min 0 (lines - first) = 0 := by
      rw [← UInt32.toNat_inj, Range.toNat_min]
      exact Nat.zero_min _
    rw [hnone] at hlines himage
    exact Shift.ext (hlines.trans (UInt32.sub_zero lines)) (himage.trans (funext (closed_zero first)))
  · exact effect_deletion_of_lt 0 (UInt32.not_le.1 hfirst)

theorem min_add_sub (hsum : n.toNat + m.toNat < UInt32.size) (hfirst : first ≤ lines) :
    first ≤ lines - min n (lines - first) ∧
      min (n + m) (lines - first) =
        min n (lines - first) + min m (lines - min n (lines - first) - first) ∧
      first.toNat + (min n (lines - first)).toNat + (min m (lines - min n (lines - first) - first)).toNat ≤
        lines.toNat := by
  have hrest : (lines - first).toNat = lines.toNat - first.toNat := UInt32.toNat_sub_of_le _ _ hfirst
  have hgone : (min n (lines - first)).toNat = min n.toNat (lines.toNat - first.toNat) := by
    rw [Range.toNat_min, hrest]
  rw [UInt32.le_iff_toNat_le] at hfirst
  have hleft : (lines - min n (lines - first)).toNat = lines.toNat - (min n (lines - first)).toNat :=
    UInt32.toNat_sub_of_le _ _ (by rw [UInt32.le_iff_toNat_le]; omega)
  have hstill : first ≤ lines - min n (lines - first) := by
    rw [UInt32.le_iff_toNat_le]
    omega
  have hmore : (min m (lines - min n (lines - first) - first)).toNat =
      min m.toNat (lines.toNat - (min n (lines - first)).toNat - first.toNat) := by
    rw [Range.toNat_min, UInt32.toNat_sub_of_le _ _ hstill, hleft]
  have htotal := toNat_add_of_lt hsum
  have hsize : lines.toNat < UInt32.size := lines.toNat_lt
  refine ⟨hstill, ?_, by omega⟩
  rw [← UInt32.toNat_inj, toNat_add_of_lt (by omega), Range.toNat_min]
  omega

/-- Two deletions at the same place are one of as many lines, also where there are
not so many. -/
theorem effect_deletion_add (hsum : n.toNat + m.toNat < UInt32.size) (first lines : UInt32) :
    (deletion first (n + m)).effect lines =
      ((deletion first n).effect lines).andThen
        ((deletion first m).effect ((deletion first n).effect lines).lines) := by
  by_cases hfirst : first ≤ lines
  · obtain ⟨hlines, himage⟩ := effect_deletion n hfirst
    obtain ⟨hlines', himage'⟩ := effect_deletion (n + m) hfirst
    obtain ⟨hstill, hsplit, hend⟩ := min_add_sub hsum hfirst
    rw [← hlines] at hstill hsplit hend
    obtain ⟨hlines'', himage''⟩ := effect_deletion m hstill
    have hsize : lines.toNat < UInt32.size := lines.toNat_lt
    refine Shift.ext ?_ (funext fun line => ?_)
    · show _ = ((deletion first m).effect _).lines
      rw [hlines', hlines'', hsplit, ← sub_sub_eq, ← hlines]
    · show _ = (((deletion first n).effect lines).image line).bind ((deletion first m).effect _).image
      rw [himage', hsplit, himage, himage'', closed_closed (by omega)]
  · have hrefused : ∀ count, (deletion first count).effect lines = .stay lines := fun count =>
      effect_deletion_of_lt count (UInt32.not_le.1 hfirst)
    have hlines : (Shift.stay lines).lines = lines := rfl
    rw [hrefused, hrefused, hlines, hrefused]
    exact (Shift.stay lines).andThen_stay.symm

end

/-! ## Sheets shifted along an axis -/

/-- The two ways in which lines lie. -/
inductive Axis where
  | rows | cols

namespace Axis

def size : Axis → Sheet → UInt32
  | rows, s => s.rows
  | cols, s => s.cols

def shifted (f : Shift) (s : Sheet) : Axis → Sheet
  | rows => { s.moved (Address.mapRow? f.image) with rows := f.lines }
  | cols => { s.moved (Address.mapCol? f.image) with cols := f.lines }

def edit (axis : Axis) (e : LineEdit) (s : Sheet) : Change :=
  match e (axis.size s) with
  | some f => ⟨axis.shifted f s, true⟩
  | none => ⟨s, false⟩

theorem size_shifted (axis : Axis) (f : Shift) (s : Sheet) : axis.size (axis.shifted f s) = f.lines := by
  cases axis <;> rfl

theorem injective_mapRow (f : Shift) : Grid.Injective (Address.mapRow? f.image) := mapRow_injective f.injective

theorem injective_mapCol (f : Shift) : Grid.Injective (Address.mapCol? f.image) := mapCol_injective f.injective

theorem shifted_shifted (axis : Axis) (f g : Shift) (s : Sheet) :
    axis.shifted g (axis.shifted f s) = axis.shifted (f.andThen g) s := by
  cases axis with
  | rows =>
    have hmoved := Sheet.moved_moved (injective_mapRow f) (injective_mapRow g) s
    simp only [along_row.bind] at hmoved
    exact congrArg (fun t : Sheet => { t with rows := g.lines }) hmoved
  | cols =>
    have hmoved := Sheet.moved_moved (injective_mapCol f) (injective_mapCol g) s
    simp only [along_col.bind] at hmoved
    exact congrArg (fun t : Sheet => { t with cols := g.lines }) hmoved

theorem shifted_stay (axis : Axis) (s : Sheet) : axis.shifted (.stay (axis.size s)) s = s := by
  have hself : ∀ {f : Address → Option Address}, Grid.Injective f → (∀ a, f a = some a) → s.moved f = s := by
    intro f hf hstays
    rw [Sheet.moved, Grid.moved_eq_self hf fun a _ _ => hstays a, Grid.moved_eq_self hf fun a _ _ => hstays a]
  cases axis with
  | rows =>
    have hmoved := hself (injective_mapRow (.stay s.rows)) fun a => along_row.stays rfl
    exact congrArg (fun t : Sheet => { t with rows := s.rows }) hmoved
  | cols =>
    have hmoved := hself (injective_mapCol (.stay s.cols)) fun a => along_col.stays rfl
    exact congrArg (fun t : Sheet => { t with cols := s.cols }) hmoved

theorem shifted_comm (f g : Shift) (s : Sheet) :
    cols.shifted g (rows.shifted f s) = rows.shifted f (cols.shifted g s) := by
  have haddress : (fun a => (Address.mapRow? f.image a).bind (Address.mapCol? g.image)) =
      fun a => (Address.mapCol? g.image a).bind (Address.mapRow? f.image) := by
    funext a
    cases hrow : f.image a.row <;> cases hcol : g.image a.col <;>
      simp [Address.mapRow?, Address.mapCol?, hrow, hcol]
  have hthere := Sheet.moved_moved (injective_mapRow f) (injective_mapCol g) s
  have hback := Sheet.moved_moved (injective_mapCol g) (injective_mapRow f) s
  rw [haddress, ← hback] at hthere
  exact congrArg (fun t : Sheet => { t with rows := f.lines, cols := g.lines }) hthere

theorem edit_of_eq_some (axis : Axis) {e : LineEdit} {s : Sheet} {f : Shift} (h : e (axis.size s) = some f) :
    axis.edit e s = ⟨axis.shifted f s, true⟩ := by
  rw [edit, h]

/-- A second edit finds the lines that the first one leaves. -/
theorem edit_andThen (axis : Axis) {e : LineEdit} (e' : LineEdit) {s : Sheet} {f g : Shift}
    (h : e (axis.size s) = some f) (h' : e' f.lines = some g) :
    axis.edit e' (axis.edit e s).sheet = axis.edit (e.andThen e') s := by
  have hboth : e.andThen e' (axis.size s) = some (f.andThen g) := by
    rw [LineEdit.andThen, h]
    show (e' f.lines).bind (fun g => some (f.andThen g)) = _
    rw [h', Option.bind_some]
  rw [axis.edit_of_eq_some h, axis.edit_of_eq_some hboth,
    axis.edit_of_eq_some (show e' (axis.size (axis.shifted f s)) = some g by rw [size_shifted, h']),
    shifted_shifted]

theorem sheet_edit (axis : Axis) (e : LineEdit) (s : Sheet) :
    (axis.edit e s).sheet = axis.shifted (e.effect (axis.size s)) s := by
  unfold edit LineEdit.effect
  cases e (axis.size s) with
  | none => exact (shifted_stay axis s).symm
  | some f => rfl

/-- Whether an edit is refused depends on the number of lines and on nothing else. -/
theorem done_edit (axis : Axis) (e : LineEdit) (s : Sheet) :
    (axis.edit e s).done = (e (axis.size s)).isSome := by
  unfold edit
  cases e (axis.size s) <;> rfl

end Axis

namespace Sheet

section

variable (s : Sheet) (first count : UInt32)

theorem insertRows_eq : s.insertRows first count = Axis.rows.edit (insertion first count) s := by
  unfold insertRows Axis.edit insertion Axis.size
  dsimp only
  split <;> rfl

theorem insertCols_eq : s.insertCols first count = Axis.cols.edit (insertion first count) s := by
  unfold insertCols Axis.edit insertion Axis.size
  dsimp only
  split <;> rfl

theorem deleteRows_eq : s.deleteRows first count = Axis.rows.edit (deletion first count) s := by
  unfold deleteRows Axis.edit deletion Axis.size
  dsimp only
  split <;> rfl

theorem deleteCols_eq : s.deleteCols first count = Axis.cols.edit (deletion first count) s := by
  unfold deleteCols Axis.edit deletion Axis.size
  dsimp only
  split <;> rfl

end

/-! ## Line by line -/

/-- What an edit makes of a sheet if it is made a number of times in a row. The
first one that is refused ends it, and is the outcome. -/
def repeated (edit : Sheet → Change) : Nat → Sheet → Change
  | 0, s => ⟨s, true⟩
  | n + 1, s => if (edit s).done then repeated edit n (edit s).sheet else edit s

/-- The sheet after an edit that is tried a number of times in a row, whether some
are refused or not. -/
def tried (edit : Sheet → Change) : Nat → Sheet → Sheet
  | 0, s => s
  | n + 1, s => tried edit n (edit s).sheet

theorem one_add_ofNat {n : Nat} (hn : n + 1 < UInt32.size) :
    (1 : UInt32).toNat + (UInt32.ofNat n).toNat < UInt32.size ∧ 1 + UInt32.ofNat n = UInt32.ofNat (n + 1) := by
  constructor
  · rw [UInt32.toNat_ofNat_of_lt' (by omega)]
    show 1 + n < _
    omega
  · rw [UInt32.ofNat_add, UInt32.add_comm]
    rfl

section

variable (axis : Axis) {first : UInt32}

theorem repeated_insertion {n : Nat} (hn : n < UInt32.size) {s : Sheet} (hfirst : first ≤ axis.size s) :
    repeated (axis.edit (insertion first 1)) n s = axis.edit (insertion first (UInt32.ofNat n)) s := by
  induction n generalizing s with
  | zero =>
    have hzero : UInt32.ofNat 0 = 0 := rfl
    rw [repeated, hzero, axis.edit_of_eq_some (insertion_zero hfirst), axis.shifted_stay]
  | succ n ih =>
    obtain ⟨f, hf, hlines, -⟩ := insertion_eq_some 1 hfirst
    have hstill : first ≤ f.lines := hlines ▸ UInt32.le_trans hfirst (le_saturatingAdd _ _)
    obtain ⟨g, hg, -⟩ := insertion_eq_some (UInt32.ofNat n) hstill
    have hsize : first ≤ axis.size (axis.edit (insertion first 1) s).sheet := by
      rw [axis.edit_of_eq_some hf, axis.size_shifted]
      exact hstill
    have hdone : (axis.edit (insertion first 1) s).done = true := by rw [axis.edit_of_eq_some hf]
    obtain ⟨hone, hcount⟩ := one_add_ofNat hn
    calc repeated (axis.edit (insertion first 1)) (n + 1) s
        = repeated (axis.edit (insertion first 1)) n (axis.edit (insertion first 1) s).sheet := if_pos hdone
      _ = axis.edit (insertion first (UInt32.ofNat n)) (axis.edit (insertion first 1) s).sheet :=
          ih (by omega) hsize
      _ = axis.edit ((insertion first 1).andThen (insertion first (UInt32.ofNat n))) s :=
          axis.edit_andThen _ hf hg
      _ = axis.edit (insertion first (UInt32.ofNat (n + 1))) s := by
          rw [insertion_andThen hone, hcount]

theorem tried_deletion (first : UInt32) {n : Nat} (hn : n < UInt32.size) (s : Sheet) :
    tried (axis.edit (deletion first 1)) n s =
      axis.shifted ((deletion first (UInt32.ofNat n)).effect (axis.size s)) s := by
  induction n generalizing s with
  | zero =>
    have hzero : UInt32.ofNat 0 = 0 := rfl
    rw [tried, hzero, effect_deletion_zero, axis.shifted_stay]
  | succ n ih =>
    obtain ⟨hone, hcount⟩ := one_add_ofNat hn
    rw [tried, axis.sheet_edit, ih (by omega), axis.size_shifted, axis.shifted_shifted,
      ← effect_deletion_add hone, hcount]

end

/-- An edit of many lines is as many edits of one line. If an insertion is carried
out, so is each of those that insert one line, and they come to the same sheet:
what is pushed over the end in one go is pushed over it line by line. Deletions come
to the same sheet too, where those that find no line left change nothing. -/
theorem lines_one_by_one (s : Sheet) (first count : UInt32) :
    (first ≤ s.rows → ∃ t, s.insertRows first count = ⟨t, true⟩ ∧
      repeated (·.insertRows first 1) count.toNat s = ⟨t, true⟩) ∧
    (first ≤ s.cols → ∃ t, s.insertCols first count = ⟨t, true⟩ ∧
      repeated (·.insertCols first 1) count.toNat s = ⟨t, true⟩) ∧
    tried (·.deleteRows first 1) count.toNat s = (s.deleteRows first count).sheet ∧
    tried (·.deleteCols first 1) count.toNat s = (s.deleteCols first count).sheet := by
  have hinsert : ∀ axis : Axis, first ≤ axis.size s →
      ∃ t, axis.edit (insertion first count) s = ⟨t, true⟩ ∧
        repeated (axis.edit (insertion first 1)) count.toNat s = ⟨t, true⟩ := by
    intro axis hfirst
    obtain ⟨f, hf, -, -⟩ := insertion_eq_some count hfirst
    have hbatch := axis.edit_of_eq_some hf
    refine ⟨_, hbatch, ?_⟩
    rw [repeated_insertion axis count.toNat_lt hfirst, UInt32.ofNat_toNat, hbatch]
  have hdelete : ∀ axis : Axis, tried (axis.edit (deletion first 1)) count.toNat s =
      (axis.edit (deletion first count) s).sheet := by
    intro axis
    rw [tried_deletion axis first count.toNat_lt, UInt32.ofNat_toNat, axis.sheet_edit]
  simp only [insertRows_eq, insertCols_eq, deleteRows_eq, deleteCols_eq]
  exact ⟨hinsert .rows, hinsert .cols, hdelete .rows, hdelete .cols⟩

/-- Two cells at the end of a sheet that has as many rows as there can be, but
one. -/
def brink : Sheet :=
  (ofBounds 4294967294 3).after [(.epoch, .setInput ⟨4294967292, 0⟩ "1"),
    (.epoch, .setInput ⟨4294967293, 2⟩ "=A4294967293")]

/-- The first of them goes to the last row there is and the second one over the end;
of the columns that are deleted, two are there. -/
theorem brink_one_by_one :
    (brink.after [(.epoch, .insertRows 5 3)]).cells.keys = [⟨4294967295, 0⟩] ∧
    (∃ t, brink.insertRows 5 3 = ⟨t, true⟩ ∧ repeated (·.insertRows 5 1) 3 brink = ⟨t, true⟩) ∧
    (∃ t, brink.insertCols 3 2 = ⟨t, true⟩ ∧ repeated (·.insertCols 3 1) 2 brink = ⟨t, true⟩) ∧
    tried (·.deleteCols 1 1) 3 brink = (brink.deleteCols 1 3).sheet := by
  obtain ⟨hrows, -, -, -⟩ := lines_one_by_one brink 5 3
  obtain ⟨-, hcols, -, -⟩ := lines_one_by_one brink 3 2
  obtain ⟨-, -, -, hdelete⟩ := lines_one_by_one brink 1 3
  exact ⟨by decide +kernel, hrows (by decide +kernel), hcols (by decide +kernel), hdelete⟩

end Sheet

/-! ## Rows and columns -/

namespace Operation

def editsRows : Operation → Bool
  | insertRows .. | deleteRows .. => true
  | _ => false

def editsCols : Operation → Bool
  | insertCols .. | deleteCols .. => true
  | _ => false

theorem exists_edit_of_editsRows {op : Operation} (h : op.editsRows = true) :
    ∃ e, ∀ clock s, op.run clock s = .ofChange (Axis.rows.edit e s) := by
  cases op with
  | insertRows first count => exact ⟨_, fun clock s => congrArg Outcome.ofChange (s.insertRows_eq first count)⟩
  | deleteRows first count => exact ⟨_, fun clock s => congrArg Outcome.ofChange (s.deleteRows_eq first count)⟩
  | _ => cases h

theorem exists_edit_of_editsCols {op : Operation} (h : op.editsCols = true) :
    ∃ e, ∀ clock s, op.run clock s = .ofChange (Axis.cols.edit e s) := by
  cases op with
  | insertCols first count => exact ⟨_, fun clock s => congrArg Outcome.ofChange (s.insertCols_eq first count)⟩
  | deleteCols first count => exact ⟨_, fun clock s => congrArg Outcome.ofChange (s.deleteCols_eq first count)⟩
  | _ => cases h

end Operation

namespace Sheet

/-- Edits of rows and edits of columns commute. In either order they come to the
same sheet, and each is carried out or refused as in the other order. -/
theorem row_col_edits_commute {r c : Operation} (hr : r.editsRows = true) (hc : c.editsCols = true)
    (s : Sheet) (clock clock' : Clock) :
    (c.run clock' (r.run clock s).sheet).sheet = (r.run clock (c.run clock' s).sheet).sheet ∧
    (r.run clock (c.run clock' s).sheet).reply = (r.run clock s).reply ∧
    (c.run clock' (r.run clock s).sheet).reply = (c.run clock' s).reply := by
  obtain ⟨e, hrun⟩ := Operation.exists_edit_of_editsRows hr
  obtain ⟨e', hrun'⟩ := Operation.exists_edit_of_editsCols hc
  simp only [hrun, hrun', Outcome.ofChange, Axis.sheet_edit, Axis.done_edit]
  -- shifted along one axis, a sheet has as many lines along the other as before
  exact ⟨Axis.shifted_comm (e.effect s.rows) (e'.effect s.cols) s, rfl, rfl⟩

/-- The cell in the last column is deleted, and the other one comes two rows further
down. -/
theorem brink_edits_commute :
    (Operation.insertRows 7 2).editsRows = true ∧ (Operation.deleteCols 2 9).editsCols = true ∧
    brink.after [(.epoch, .insertRows 7 2), (.epoch, .deleteCols 2 9)] =
      brink.after [(.epoch, .deleteCols 2 9), (.epoch, .insertRows 7 2)] ∧
    ((Operation.deleteCols 2 9).run .epoch ((Operation.insertRows 7 2).run .epoch brink).sheet).reply =
      ((Operation.deleteCols 2 9).run .epoch brink).reply := by
  have hrows : (Operation.insertRows 7 2).editsRows = true := rfl
  have hcols : (Operation.deleteCols 2 9).editsCols = true := rfl
  obtain ⟨hsheet, -, hreply⟩ := row_col_edits_commute hrows hcols brink .epoch .epoch
  exact ⟨hrows, hcols, hsheet, hreply⟩

end Sheet

end Spreadsheet

import Spreadsheet.Proofs.Sheet.Bounds
import Spreadsheet.Proofs.Sheet.Index

/-
  Operations that a sheet refuses.

  The reply tells whether an operation was carried out: a write is refused with
  an error, an edit with a no, and an evaluation has no result. What a sheet
  refuses is what it does not admit, and nothing else: a write outside the grid,
  lines outside of it, a result for a cell without a formula, a listener that is
  not registered. Nothing is done before the refusal, also not by an operation
  that is made of others: the sheet stays the same and no listener is called
  (`run_refused`). So a run is not changed by the operations in it that are
  refused (`Reachable.after_admitted`).
-/

namespace Spreadsheet

/-- Whether the reply is that the operation was not carried out. -/
def Outcome.isRefusal (o : Outcome) : Bool :=
  match o.reply with
  | .error _ | .ok (.done false) | .ok (.result none) => true
  | _ => false

namespace Sheet

variable {s : Sheet} {a : Address}

/-! ## When an operation comes to something -/

theorem exists_setCell_iff (value : CellValue) (formula : Option String) :
    (∃ cell, (s.setCell a value formula).cell = .ok cell) ↔ a.row < s.rows ∧ a.col < s.cols := by
  rw [← inBounds_iff]
  by_cases hin : s.inBounds a = true
  · exact iff_of_true ⟨_, setCell_of_inBounds hin value formula⟩ hin
  · refine iff_of_false ?_ hin
    rintro ⟨cell, hcell⟩
    rw [setCell_of_not_inBounds hin] at hcell
    cases hcell

theorem exists_setInput_iff (text : String) :
    (∃ cell, (s.setInput a text).cell = .ok cell) ↔ a.row < s.rows ∧ a.col < s.cols := by
  unfold Sheet.setInput
  split
  · exact exists_setCell_iff _ _
  · exact exists_setCell_iff _ _

/-- Once the text is written, nothing that is done to enter it can fail. -/
theorem exists_enter_iff (clock : Clock) (text : String) :
    (∃ cell, (s.enter clock a text).cell = .ok cell) ↔ a.row < s.rows ∧ a.col < s.cols := by
  rw [← exists_setInput_iff text]
  unfold Sheet.enter
  dsimp only
  cases hcell : (s.setInput a text).cell with
  | error e =>
    dsimp only
    rw [hcell]
  | ok cell => exact iff_of_true ⟨_, rfl⟩ ⟨cell, rfl⟩

theorem done_setResult_iff {value : CellValue} :
    (s.setResult a value).done = true ↔ ∃ cell, s.cells[a]? = some cell ∧ cell.isFormula = true := by
  unfold Sheet.setResult
  cases s.cells[a]? with
  | none => simp
  | some cell => cases hformula : cell.isFormula <;> simp [hformula]

theorem done_removeListener_iff {id : Nat} : (s.removeListener id).done = true ↔ id ∈ s.listeners := by
  simp [Sheet.removeListener, List.length_filter_eq_length_iff]

/-- A formula can be evaluated by itself where there is a formula cell. -/
theorem Indexed.isSome_recalculateCell_iff (hs : s.Indexed) (clock : Clock) (a : Address) :
    (s.recalculateCell clock a).2.isSome = true ↔
      ∃ cell, s.cells[a]? = some cell ∧ cell.isFormula = true := by
  have hindex := hs.formulas a
  unfold Sheet.recalculateCell
  cases hformula : s.formulas[a]? with
  | none =>
    refine iff_of_false (by simp) ?_
    rintro ⟨cell, hcell, hisFormula⟩
    rw [hformula, hcell, Option.bind_some] at hindex
    rw [Cell.isFormula, ← hindex] at hisFormula
    cases hisFormula
  | some text =>
    obtain ⟨cell, hcell, htext⟩ := hs.exists_cell hformula
    exact iff_of_true rfl ⟨cell, hcell, by rw [Cell.isFormula, htext]; rfl⟩

theorem recalculateCell_of_isNone {clock : Clock} (h : (s.recalculateCell clock a).2 = none) :
    (s.recalculateCell clock a).1 = s := by
  unfold Sheet.recalculateCell at h ⊢
  split at h
  · cases h
  · rfl

/-! ## Refused operations -/

/-- Whether a sheet admits an operation: a write inside the grid, a result or an
evaluation of a formula cell, an insertion before a line or after the last one, a
deletion from a line on, the removal of a listener that is registered. The other
operations are always admitted. -/
def Admits (s : Sheet) : Operation → Prop
  | .setInput a _ | .setCell a _ _ | .enter a _ => a.row < s.rows ∧ a.col < s.cols
  | .setResult a _ | .recalculateCell a => ∃ cell, s.cells[a]? = some cell ∧ cell.isFormula = true
  | .insertRows first _ => first ≤ s.rows
  | .insertCols first _ => first ≤ s.cols
  | .deleteRows first _ => first < s.rows
  | .deleteCols first _ => first < s.cols
  | .removeListener id => id ∈ s.listeners
  | .clear .. | .addListener | .recalculate _ => True

/-- Whether an outcome is a refusal exactly if a condition does not hold, and
nothing was done then. -/
structure RefusedUnless (p : Prop) (s : Sheet) (o : Outcome) : Prop where
  isRefusal_iff : o.isRefusal = true ↔ ¬ p
  unchanged : o.isRefusal = true → o.sheet = s ∧ o.calls = []

section

variable {p : Prop} {o : Outcome}

theorem refusedUnless_of_carriedOut (ho : o.isRefusal = false) (hp : p) : RefusedUnless p s o where
  isRefusal_iff := by simp [ho, hp]
  unchanged h := by simp [ho] at h

theorem refusedUnless_of_not {reply : Except SheetError Reply}
    (hreply : (Outcome.mk s reply []).isRefusal = true) (hp : ¬ p) : RefusedUnless p s ⟨s, reply, []⟩ where
  isRefusal_iff := iff_of_true hreply hp
  unchanged _ := ⟨rfl, rfl⟩

theorem refusedUnless_ofWrite {w : Written} {reply : Cell → Reply} (hw : w.Atomic s)
    (h : (∃ cell, w.cell = .ok cell) ↔ p)
    (hreply : ∀ cell, (Outcome.mk w.sheet (.ok (reply cell)) w.calls).isRefusal = false) :
    RefusedUnless p s (.ofWrite reply w) := by
  obtain ⟨t, result, calls⟩ := w
  cases result with
  | ok cell => exact refusedUnless_of_carriedOut (hreply cell) (h.1 ⟨cell, rfl⟩)
  | error e =>
    obtain ⟨rfl, rfl⟩ := hw e rfl
    refine refusedUnless_of_not rfl fun hp => ?_
    obtain ⟨cell, hcell⟩ := h.2 hp
    cases hcell

theorem refusedUnless_ofChange {c : Change} (hc : c.Atomic s) (h : c.done = true ↔ p) :
    RefusedUnless p s (.ofChange c) := by
  obtain ⟨t, done⟩ := c
  cases done with
  | true => exact refusedUnless_of_carriedOut rfl (h.1 rfl)
  | false =>
    obtain rfl := hc rfl
    exact refusedUnless_of_not rfl fun hp => by cases h.2 hp

end

/-- What a sheet does not admit it refuses, and nothing is done then. -/
theorem Indexed.refusedUnless_run (hs : s.Indexed) (clock : Clock) (op : Operation) :
    RefusedUnless (s.Admits op) s (op.run clock s) := by
  have hlines := s.atomic_restructured op
  cases op with
  | setInput a text =>
    exact refusedUnless_ofWrite (s.atomic_setInput a text) (exists_setInput_iff text) fun _ => rfl
  | setCell a value formula =>
    exact refusedUnless_ofWrite (s.atomic_setCell a value formula) (exists_setCell_iff value formula)
      fun _ => rfl
  | enter a text =>
    exact refusedUnless_ofWrite (s.atomic_enter a clock text) (exists_enter_iff clock text) fun _ => rfl
  | setResult a value => exact refusedUnless_ofChange (s.atomic_setResult a value) done_setResult_iff
  | insertRows first count =>
    exact refusedUnless_ofChange hlines (done_ite_refused.trans UInt32.not_lt)
  | insertCols first count =>
    exact refusedUnless_ofChange hlines (done_ite_refused.trans UInt32.not_lt)
  | deleteRows first count =>
    exact refusedUnless_ofChange hlines (done_ite_refused.trans UInt32.not_le)
  | deleteCols first count =>
    exact refusedUnless_ofChange hlines (done_ite_refused.trans UInt32.not_le)
  | removeListener id => exact refusedUnless_ofChange (s.atomic_removeListener id) done_removeListener_iff
  | recalculateCell a =>
    -- it looks into the index, so the index has to agree with the cells
    have hsome := hs.isSome_recalculateCell_iff clock a
    show RefusedUnless _ s ⟨(s.recalculateCell clock a).1, .ok (.result (s.recalculateCell clock a).2), []⟩
    cases hresult : (s.recalculateCell clock a).2 with
    | some value => exact refusedUnless_of_carriedOut rfl (hsome.1 (by rw [hresult]; rfl))
    | none =>
      rw [recalculateCell_of_isNone hresult]
      refine refusedUnless_of_not rfl fun hformula => ?_
      rw [hresult] at hsome
      cases hsome.2 hformula
  | clear first last => exact refusedUnless_of_carriedOut rfl trivial
  | addListener => exact refusedUnless_of_carriedOut rfl trivial
  | recalculate options => exact refusedUnless_of_carriedOut rfl trivial

/-- The operations of a run that the sheet they come to admits. -/
def admitted (s : Sheet) : List (Clock × Operation) → List (Clock × Operation)
  | [] => []
  | (clock, op) :: steps =>
    let o := op.run clock s
    if o.isRefusal then admitted o.sheet steps else (clock, op) :: admitted o.sheet steps

/-- A run leaves what it leaves without the operations that are refused. -/
theorem Reachable.after_admitted (hs : s.Reachable) (steps : List (Clock × Operation)) :
    s.after (s.admitted steps) = s.after steps := by
  induction steps generalizing s with
  | nil => rfl
  | cons step steps ih =>
    obtain ⟨clock, op⟩ := step
    have hrest := ih (hs.run clock op)
    have hstep : s.after ((clock, op) :: steps) = (op.run clock s).sheet.after steps := rfl
    rw [admitted, hstep, ← hrest]
    split
    · rename_i hrefused
      rw [((hs.indexed.refusedUnless_run clock op).unchanged hrefused).1]
    · rfl

/-- An operation on a sheet that operations lead to is refused exactly if the
sheet does not admit it. A refused operation leaves the cells, the index, the
size and the listeners as they are, and no listener is called. -/
theorem run_refused (hs : s.Reachable) (clock : Clock) (op : Operation) :
    ((op.run clock s).isRefusal = true ↔ ¬ s.Admits op) ∧
    ((op.run clock s).isRefusal = true → (op.run clock s).sheet = s ∧ (op.run clock s).calls = []) :=
  ⟨(hs.indexed.refusedUnless_run clock op).isRefusal_iff, (hs.indexed.refusedUnless_run clock op).unchanged⟩

/-- A sheet of one row with a listener, a formula and a number. -/
def watched : Sheet :=
  (ofBounds 1 2).after [(.epoch, .addListener), (.epoch, .setInput ⟨0, 0⟩ "=1"),
    (.epoch, .setInput ⟨0, 1⟩ "1")]

/-- Operations that the sheet does not admit, one of each kind. -/
def unadmitted : List Operation :=
  [.setInput ⟨1, 0⟩ "x", .setCell ⟨0, 2⟩ .empty none, .enter ⟨1, 0⟩ "=A1", .setResult ⟨0, 1⟩ .empty,
    .insertRows 2 1, .insertCols 3 1, .deleteRows 1 1, .deleteCols 2 1, .removeListener 1,
    .recalculateCell ⟨0, 1⟩]

theorem run_refused_watched :
    (unadmitted.map fun op => (op.run .epoch watched).sheet) = List.replicate unadmitted.length watched ∧
      (unadmitted.flatMap fun op => (op.run .epoch watched).calls) = [] := by
  have hrefused : ∀ op ∈ unadmitted, (op.run .epoch watched).isRefusal = true := by decide
  have hrun : ∀ op ∈ unadmitted, (op.run .epoch watched).sheet = watched ∧ (op.run .epoch watched).calls = [] :=
    fun op hop => (run_refused ((Reachable.ofBounds 1 2).after _) .epoch op).2 (hrefused op hop)
  exact ⟨List.map_eq_replicate_iff.2 fun op hop => (hrun op hop).1,
    List.flatMap_eq_nil_iff.2 fun op hop => (hrun op hop).2⟩

end Sheet

end Spreadsheet

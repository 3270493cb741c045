import Spreadsheet.Proofs.Address.Range
import Spreadsheet.Proofs.Formula.Cell
import Spreadsheet.Sheet.Operation

/-
  What an operation can do to a sheet.

  Every operation comes down to edits of five kinds: a cell is written, a result
  is stored, a rectangle is cleared, lines are moved, listeners come and go. None
  of them does a part of its work before it is refused (`Written.Atomic`,
  `Change.Atomic`), so what an edit does is what it does when it is carried out.
  A property that every edit keeps is `Stable`, and then it is kept by every
  operation (`Stable.run`) and holds of every sheet that operations lead to
  (`Stable.reachable`). A property of the size of the sheet is at first only
  `Steady`, kept where no lines are moved; what becomes of it where they are is
  left open (`Steady.run`).

  A structural edit is a move of both maps of a sheet by one and the same map of
  addresses, which brings no two addresses to the same place (`Moves`).
-/

namespace Spreadsheet

/-! ## Moving a grid -/

namespace Grid

variable {β : Type} {f : Address → Option Address}

/-- Whether no two addresses go to the same place. -/
def Injective (f : Address → Option Address) : Prop :=
  ∀ a b c, f a = some c → f b = some c → a = b

theorem distinct_moved (hf : Injective f) (g : Grid β) :
    (g.toList.filterMap fun (a, v) => (f a).map (·, v)).Pairwise
      (fun p q => ¬ compare p.1 q.1 = .eq) := by
  rw [List.pairwise_filterMap]
  refine g.distinct_keys_toList.imp (fun {p q} hpq p' hp' q' hq' heq => hpq ?_)
  obtain ⟨b, hb, rfl⟩ := Option.map_eq_some_iff.1 hp'
  obtain ⟨c, hc, rfl⟩ := Option.map_eq_some_iff.1 hq'
  have hbc : b = c := Std.LawfulEqOrd.eq_of_compare heq
  rw [hf p.1 q.1 c (hbc ▸ hb) hc]
  exact Std.ReflCmp.compare_self

theorem getElem?_moved (hf : Injective f) (g : Grid β) {a b : Address} (h : f a = some b) :
    (Grid.moved f g)[b]? = g[a]? := by
  cases hv : g[a]? with
  | some v =>
    refine Std.ExtTreeMap.getElem?_ofList_of_mem Std.ReflCmp.compare_self (distinct_moved hf g) ?_
    rw [List.mem_filterMap]
    exact ⟨(a, v), Std.ExtTreeMap.mem_toList_iff_getElem?_eq_some.2 hv, by simp [h]⟩
  | none =>
    refine Std.ExtTreeMap.getElem?_ofList_of_contains_eq_false ?_
    rw [← Bool.not_eq_true, List.contains_iff_mem, List.mem_map]
    intro hmem
    obtain ⟨⟨b', v⟩, hmem, rfl⟩ := hmem
    obtain ⟨⟨a', v'⟩, ha', heq⟩ := List.mem_filterMap.1 hmem
    obtain ⟨b₁, hb₁, heq⟩ := Option.map_eq_some_iff.1 heq
    cases heq
    rw [Std.ExtTreeMap.mem_toList_iff_getElem?_eq_some, hf a' a _ hb₁ h, hv] at ha'
    cases ha'

theorem getElem?_moved_of_forall_ne (g : Grid β) {b : Address} (h : ∀ a, f a ≠ some b) :
    (Grid.moved f g)[b]? = none := by
  refine Std.ExtTreeMap.getElem?_ofList_of_contains_eq_false ?_
  rw [← Bool.not_eq_true, List.contains_iff_mem, List.mem_map]
  intro hmem
  obtain ⟨⟨b', v⟩, hmem, rfl⟩ := hmem
  obtain ⟨⟨a', v'⟩, _, heq⟩ := List.mem_filterMap.1 hmem
  obtain ⟨b₁, hb₁, heq⟩ := Option.map_eq_some_iff.1 heq
  cases heq
  exact h a' hb₁

theorem exists_of_getElem?_moved (hf : Injective f) {g : Grid β} {b : Address} {v : β}
    (h : (Grid.moved f g)[b]? = some v) : ∃ a, f a = some b ∧ g[a]? = some v := by
  by_cases hb : ∃ a, f a = some b
  · obtain ⟨a, ha⟩ := hb
    rw [getElem?_moved hf g ha] at h
    exact ⟨a, ha, h⟩
  · rw [getElem?_moved_of_forall_ne g fun a ha => hb ⟨a, ha⟩] at h
    cases h

end Grid

theorem toNat_of_checkedAdd {x y z : UInt32} (h : checkedAdd x y = some z) :
    z.toNat = x.toNat + y.toNat := by
  unfold checkedAdd at h
  split at h
  · rename_i hlt
    cases h
    rw [UInt32.toNat_add]
    exact Nat.mod_eq_of_lt hlt
  · cases h

/-- An insertion moves the lines from its place on by the lines inserted, and no
others. -/
theorem opened_eq_some {first count line moved : UInt32} (h : opened first count line = some moved) :
    (first.toNat ≤ line.toNat ∧ moved.toNat = line.toNat + count.toNat) ∨
      (line.toNat < first.toNat ∧ moved.toNat = line.toNat) := by
  simp only [opened, UInt32.le_iff_toNat_le] at h
  split at h
  · rename_i hle
    exact .inl ⟨hle, toNat_of_checkedAdd h⟩
  · rename_i hlt
    cases h
    exact .inr ⟨Nat.not_le.1 hlt, rfl⟩

/-- A deletion moves the lines behind those deleted up by as many, and leaves the
lines before them. -/
theorem closed_eq_some {first count line moved : UInt32}
    (hsum : first.toNat + count.toNat < UInt32.size) (h : closed first count line = some moved) :
    (line.toNat < first.toNat ∧ moved.toNat = line.toNat) ∨
      (first.toNat + count.toNat ≤ line.toNat ∧ moved.toNat = line.toNat - count.toNat) := by
  have hend : (first + count).toNat = first.toNat + count.toNat := by
    rw [UInt32.toNat_add]
    exact Nat.mod_eq_of_lt hsum
  simp only [closed, UInt32.lt_iff_toNat_lt, hend] at h
  split at h
  · rename_i hlt
    cases h
    exact .inl ⟨hlt, rfl⟩
  · split at h
    · cases h
    · cases h
      have hle : count ≤ line := by rw [UInt32.le_iff_toNat_le]; omega
      exact .inr ⟨by omega, UInt32.toNat_sub_of_le line count hle⟩

theorem opened_injective {first count x y z : UInt32} (hx : opened first count x = some z)
    (hy : opened first count y = some z) : x = y := by
  rw [← UInt32.toNat_inj]
  have := opened_eq_some hx
  have := opened_eq_some hy
  omega

theorem closed_injective {first count x y z : UInt32}
    (hsum : first.toNat + count.toNat < UInt32.size) (hx : closed first count x = some z)
    (hy : closed first count y = some z) : x = y := by
  rw [← UInt32.toNat_inj]
  have := closed_eq_some hsum hx
  have := closed_eq_some hsum hy
  omega

theorem mapRow_injective {f : UInt32 → Option UInt32}
    (hf : ∀ x y z, f x = some z → f y = some z → x = y) : Grid.Injective (Address.mapRow? f) := by
  intro a b c ha hb
  obtain ⟨row, hrow, rfl⟩ := Option.map_eq_some_iff.1 ha
  obtain ⟨row', hrow', heq⟩ := Option.map_eq_some_iff.1 hb
  obtain ⟨rfl, hcol⟩ := Address.mk.injEq _ _ _ _ ▸ heq
  obtain ⟨arow, acol⟩ := a
  obtain ⟨brow, bcol⟩ := b
  simp only at hrow hrow' hcol
  rw [hf arow brow row' hrow hrow', hcol]

theorem mapCol_injective {f : UInt32 → Option UInt32}
    (hf : ∀ x y z, f x = some z → f y = some z → x = y) : Grid.Injective (Address.mapCol? f) := by
  intro a b c ha hb
  obtain ⟨col, hcol, rfl⟩ := Option.map_eq_some_iff.1 ha
  obtain ⟨col', hcol', heq⟩ := Option.map_eq_some_iff.1 hb
  obtain ⟨hrow, rfl⟩ := Address.mk.injEq _ _ _ _ ▸ heq
  obtain ⟨arow, acol⟩ := a
  obtain ⟨brow, bcol⟩ := b
  simp only at hcol hcol' hrow
  rw [hf acol bcol col' hcol hcol', hrow]

/-! ## Refused edits -/

/-- Whether a write leaves the sheet and calls nobody if it comes to no cell. -/
def Written.Atomic (s : Sheet) (w : Written) : Prop :=
  ∀ e, w.cell = .error e → w.sheet = s ∧ w.calls = []

/-- Whether an edit leaves the sheet if it is not carried out. -/
def Change.Atomic (s : Sheet) (c : Change) : Prop := c.done = false → c.sheet = s

/-- What an edit makes true if it is carried out is true anyway if it was so
before. -/
theorem Change.Atomic.keeps {p : Sheet → Prop} {s : Sheet} {c : Change} (hc : c.Atomic s) (h : p s)
    (hdone : ∀ t, c = ⟨t, true⟩ → p t) : p c.sheet := by
  obtain ⟨t, done⟩ := c
  cases done with
  | false => exact hc rfl ▸ h
  | true => exact hdone t rfl

section

variable {refused : Prop} [Decidable refused] {s t u : Sheet}

theorem ite_refused_eq :
    (if refused then ⟨s, false⟩ else ⟨u, true⟩ : Change) = ⟨t, true⟩ ↔ ¬ refused ∧ u = t := by
  by_cases h : refused <;> simp [h]

theorem done_ite_refused :
    (if refused then ⟨s, false⟩ else ⟨u, true⟩ : Change).done = true ↔ ¬ refused := by
  by_cases h : refused <;> simp [h]

theorem atomic_ite_refused : (if refused then ⟨s, false⟩ else ⟨u, true⟩ : Change).Atomic s := by
  intro hdone
  split at hdone
  · rw [if_pos ‹_›]
  · cases hdone

end

namespace Sheet

section

variable (s : Sheet) (a : Address)

theorem setCell_of_inBounds {s : Sheet} {a : Address} (hin : s.inBounds a = true) (value : CellValue)
    (formula : Option String) :
    (s.setCell a value formula).cell = .ok (Cell.ofContent value formula) := by
  rw [Sheet.setCell, if_pos hin]

theorem setCell_of_not_inBounds {s : Sheet} {a : Address} (hout : ¬ s.inBounds a = true) (value : CellValue)
    (formula : Option String) :
    s.setCell a value formula = ⟨s, .error (.outOfBounds a s.rows s.cols), []⟩ := by
  rw [Sheet.setCell, if_neg hout]

theorem atomic_setCell (value : CellValue) (formula : Option String) :
    (s.setCell a value formula).Atomic s := by
  intro e he
  by_cases hin : s.inBounds a = true
  · rw [setCell_of_inBounds hin] at he
    cases he
  · rw [setCell_of_not_inBounds hin]
    exact ⟨rfl, rfl⟩

theorem atomic_setInput (text : String) : (s.setInput a text).Atomic s := by
  unfold Sheet.setInput
  split
  · exact atomic_setCell s a _ _
  · exact atomic_setCell s a _ _

/-- The evaluation of a text that is entered comes after the write, and so after
all that can be refused. -/
theorem atomic_enter (clock : Clock) (text : String) : (s.enter clock a text).Atomic s := by
  intro e he
  unfold Sheet.enter at he ⊢
  dsimp only at he ⊢
  cases hcell : (s.setInput a text).cell with
  | error e' => exact atomic_setInput s a text e' hcell
  | ok cell =>
    rw [hcell] at he
    cases he

/-- A result is stored in a formula cell, whose value it replaces, or dropped. -/
theorem setResult_cases (value : CellValue) :
    s.setResult a value = ⟨s, false⟩ ∨
      ∃ cell, s.cells[a]? = some cell ∧ cell.isFormula = true ∧
        s.setResult a value = ⟨{ s with cells := s.cells.insert a (cell.store value) }, true⟩ := by
  unfold Sheet.setResult
  cases hcell : s.cells[a]? with
  | none => exact .inl rfl
  | some cell =>
    by_cases hformula : cell.isFormula = true
    · exact .inr ⟨cell, rfl, hformula, if_pos hformula⟩
    · exact .inl (if_neg hformula)

theorem atomic_setResult (value : CellValue) : (s.setResult a value).Atomic s := by
  intro hdone
  rcases s.setResult_cases a value with heq | ⟨cell, -, -, heq⟩
  · rw [heq]
  · rw [heq] at hdone
    cases hdone

/-- A listener that is not registered cannot be filtered out. -/
theorem atomic_removeListener (id : Nat) : (s.removeListener id).Atomic s := by
  intro hdone
  have hlength : (s.listeners.filter (· != id)).length = s.listeners.length := by
    simpa [Sheet.removeListener] using hdone
  have hall : s.listeners.filter (· != id) = s.listeners :=
    List.filter_eq_self.2 (List.length_filter_eq_length_iff.1 hlength)
  show ({ s with listeners := s.listeners.filter (· != id) } : Sheet) = s
  rw [hall]

end

/-! ## Structural edits are moves -/

/-- Whether a sheet is another one with its cells moved, of some size. -/
def Moves (s t : Sheet) : Prop :=
  ∃ f rows cols, Grid.Injective f ∧ t = { s.moved f with rows, cols }

section

variable {s t : Sheet} {first count : UInt32}

theorem moves_of_insertRows (h : s.insertRows first count = ⟨t, true⟩) : s.Moves t := by
  obtain ⟨-, rfl⟩ := ite_refused_eq.1 h
  exact ⟨_, _, s.cols, mapRow_injective fun _ _ _ => opened_injective, rfl⟩

theorem moves_of_insertCols (h : s.insertCols first count = ⟨t, true⟩) : s.Moves t := by
  obtain ⟨-, rfl⟩ := ite_refused_eq.1 h
  exact ⟨_, s.rows, _, mapCol_injective fun _ _ _ => opened_injective, rfl⟩

theorem toNat_add_min_le {first lines : UInt32} (count : UInt32) (h : first < lines) :
    first.toNat + (min count (lines - first)).toNat ≤ lines.toNat := by
  rw [UInt32.lt_iff_toNat_lt] at h
  have hrest : (lines - first).toNat = lines.toNat - first.toNat :=
    UInt32.toNat_sub_of_le lines first (by rw [UInt32.le_iff_toNat_le]; omega)
  rw [Range.toNat_min]
  omega

theorem toNat_add_min_lt {first lines : UInt32} (count : UInt32) (h : first < lines) :
    first.toNat + (min count (lines - first)).toNat < UInt32.size :=
  Nat.lt_of_le_of_lt (toNat_add_min_le count h) lines.toNat_lt

theorem moves_of_deleteRows (h : s.deleteRows first count = ⟨t, true⟩) : s.Moves t := by
  obtain ⟨hfirst, rfl⟩ := ite_refused_eq.1 h
  have hsum := toNat_add_min_lt count (UInt32.not_le.1 hfirst)
  exact ⟨_, _, s.cols, mapRow_injective fun _ _ _ => closed_injective hsum, rfl⟩

theorem moves_of_deleteCols (h : s.deleteCols first count = ⟨t, true⟩) : s.Moves t := by
  obtain ⟨hfirst, rfl⟩ := ite_refused_eq.1 h
  have hsum := toNat_add_min_lt count (UInt32.not_le.1 hfirst)
  exact ⟨_, s.rows, _, mapCol_injective fun _ _ _ => closed_injective hsum, rfl⟩

end

/-- The outcome of a structural edit. An operation of another kind is none, and
edits nothing. -/
def restructured (s : Sheet) : Operation → Change
  | .insertRows first count => s.insertRows first count
  | .insertCols first count => s.insertCols first count
  | .deleteRows first count => s.deleteRows first count
  | .deleteCols first count => s.deleteCols first count
  | _ => ⟨s, false⟩

theorem moves_of_restructured {s t : Sheet} {op : Operation} (h : s.restructured op = ⟨t, true⟩) :
    s.Moves t := by
  cases op with
  | insertRows first count => exact moves_of_insertRows h
  | insertCols first count => exact moves_of_insertCols h
  | deleteRows first count => exact moves_of_deleteRows h
  | deleteCols first count => exact moves_of_deleteCols h
  | _ => cases h

theorem atomic_restructured (s : Sheet) (op : Operation) : (s.restructured op).Atomic s := by
  cases op with
  | insertRows first count => exact atomic_ite_refused
  | insertCols first count => exact atomic_ite_refused
  | deleteRows first count => exact atomic_ite_refused
  | deleteCols first count => exact atomic_ite_refused
  | _ => exact fun _ => rfl

/-! ## Properties that operations keep -/

/-- Whether every edit of a sheet that moves no lines keeps a property. -/
structure Steady (p : Sheet → Prop) : Prop where
  setCell : ∀ {s : Sheet} {a : Address} (value : CellValue) (formula : Option String),
    p s → s.inBounds a = true → p (s.setCell a value formula).sheet
  setResult : ∀ {s : Sheet} {a : Address} {cell : Cell} (value : CellValue),
    p s → s.cells[a]? = some cell → cell.isFormula = true →
      p { s with cells := s.cells.insert a (cell.store value) }
  clear : ∀ {s : Sheet} (first last : Address), p s → p (s.clear first last).1
  listeners : ∀ {s : Sheet} (listeners : List Nat) (nextListener : Nat),
    p s → p { s with listeners, nextListener }

/-- Whether every edit of a sheet keeps a property. -/
structure Stable (p : Sheet → Prop) : Prop extends Steady p where
  moves : ∀ {s t : Sheet}, p s → s.Moves t → p t

namespace Steady

variable {p : Sheet → Prop} (hp : Steady p) {s : Sheet} (h : p s)

include hp h

theorem sheet_setCell (a : Address) (value : CellValue) (formula : Option String) :
    p (s.setCell a value formula).sheet := by
  by_cases hin : s.inBounds a = true
  · exact hp.setCell value formula h hin
  · rw [setCell_of_not_inBounds hin]
    exact h

theorem setInput (a : Address) (text : String) : p (s.setInput a text).sheet := by
  unfold Sheet.setInput
  split
  · exact hp.sheet_setCell h a _ _
  · exact hp.sheet_setCell h a _ _

theorem sheet_setResult (a : Address) (value : CellValue) : p (s.setResult a value).sheet := by
  rcases s.setResult_cases a value with heq | ⟨cell, hcell, hformula, heq⟩
  · rw [heq]
    exact h
  · rw [heq]
    exact hp.setResult value h hcell hformula

theorem setResults (rs : List (Address × CellValue)) : p (s.setResults rs) := by
  induction rs generalizing s with
  | nil => exact h
  | cons r rs ih => exact ih (hp.sheet_setResult h r.1 r.2)

theorem recalculateCell (clock : Clock) (a : Address) : p (s.recalculateCell clock a).1 := by
  unfold Sheet.recalculateCell
  split
  · exact hp.sheet_setResult h a _
  · exact h

theorem enter (clock : Clock) (a : Address) (text : String) : p (s.enter clock a text).sheet := by
  have hwritten := hp.setInput h a text
  unfold Sheet.enter
  dsimp only
  split
  · exact hwritten
  · exact hp.recalculateCell hwritten clock a

/-- Every operation keeps the property if the structural edit does that it
may be. -/
theorem run (clock : Clock) (op : Operation) (hlines : ∀ t, s.restructured op = ⟨t, true⟩ → p t) :
    p (op.run clock s).sheet := by
  have hrestructured := (atomic_restructured s op).keeps h hlines
  cases op with
  | setInput a text => exact hp.setInput h a text
  | setCell a value formula => exact hp.sheet_setCell h a value formula
  | setResult a value => exact hp.sheet_setResult h a value
  | enter a text => exact hp.enter h clock a text
  | clear first last => exact hp.clear first last h
  | insertRows first count => exact hrestructured
  | insertCols first count => exact hrestructured
  | deleteRows first count => exact hrestructured
  | deleteCols first count => exact hrestructured
  | addListener => exact hp.listeners _ _ h
  | removeListener id => exact hp.listeners _ _ h
  | recalculateCell a => exact hp.recalculateCell h clock a
  | recalculate options => exact hp.setResults h _

end Steady

theorem Stable.run {p : Sheet → Prop} (hp : Stable p) {s : Sheet} (h : p s) (clock : Clock)
    (op : Operation) : p (op.run clock s).sheet :=
  hp.toSteady.run h clock op fun _ ht => hp.moves h (moves_of_restructured ht)

end Sheet

/-! ## Properties of the stored cells -/

/-- Whether a property holds of the cells that writes and clears leave, and is
kept when the result of a formula is stored. -/
structure Cell.Stable (p : Cell → Prop) : Prop where
  empty : p Cell.empty
  ofContent : ∀ value formula, p (Cell.ofContent value formula)
  store : ∀ cell value, cell.isFormula = true → p cell → p (cell.store value)

namespace Sheet

/-- Whether a property holds of every stored cell. -/
def Stores (p : Cell → Prop) (s : Sheet) : Prop :=
  ∀ (a : Address) (cell : Cell), s.cells[a]? = some cell → p cell

theorem stores_ofBounds (p : Cell → Prop) (rows cols : UInt32) : (ofBounds rows cols).Stores p := by
  intro a cell hcell
  simp [ofBounds] at hcell

/-- What the edits of one cell keep, the edits of a sheet keep of all cells. -/
theorem stable_stores {p : Cell → Prop} (hp : Cell.Stable p) : Stable (Stores p) where
  setCell := by
    intro s a value formula h hin b cell hcell
    rw [Sheet.setCell, if_pos hin, Std.ExtTreeMap.getElem?_insert] at hcell
    split at hcell
    · cases hcell
      exact hp.ofContent value formula
    · exact h b cell hcell
  setResult := by
    intro s a before value h hbefore hformula b cell hcell
    rw [Std.ExtTreeMap.getElem?_insert] at hcell
    split at hcell
    · cases hcell
      exact hp.store before value hformula (h a before hbefore)
    · exact h b cell hcell
  clear := by
    intro s first last h b cell hcell
    simp only [Sheet.clear, Std.ExtTreeMap.getElem?_map] at hcell
    obtain ⟨before, hbefore, rfl⟩ := Option.map_eq_some_iff.1 hcell
    split
    · exact hp.empty
    · exact h b before hbefore
  moves := by
    intro s t h ht b cell hcell
    obtain ⟨f, rows, cols, hf, rfl⟩ := ht
    obtain ⟨a, -, ha⟩ := Grid.exists_of_getElem?_moved hf hcell
    exact h a cell ha
  listeners _ _ h := h

/-! ## Reachable sheets -/

/-- The sheets that operations lead to. -/
inductive Reachable : Sheet → Prop
  | ofBounds (rows cols : UInt32) : Reachable (ofBounds rows cols)
  | run {s : Sheet} (h : Reachable s) (clock : Clock) (op : Operation) :
    Reachable (op.run clock s).sheet

/-- What holds of the sheets without cells and is stable holds of every sheet
that operations lead to. -/
theorem Stable.reachable {p : Sheet → Prop} (hp : Stable p) (hnew : ∀ rows cols, p (.ofBounds rows cols))
    {s : Sheet} (h : s.Reachable) : p s := by
  induction h with
  | ofBounds rows cols => exact hnew rows cols
  | run _ clock op ih => exact hp.run ih clock op

theorem Reachable.setInput {s : Sheet} (h : s.Reachable) (a : Address) (text : String) :
    (s.setInput a text).sheet.Reachable := h.run .epoch (.setInput a text)

/-! ## Sheets made from tables -/

section

variable {p : Sheet → Prop}
  (hp : ∀ {s : Sheet} (a : Address) (text : String), p s → p (s.setInput a text).sheet)

include hp

theorem writeRow_keeps {s t : Sheet} (h : p s) {row : UInt32} {col : Nat} {texts : List String}
    (ht : s.writeRow row col texts = .ok t) : p t := by
  induction texts generalizing s col with
  | nil =>
    cases ht
    exact h
  | cons text texts ih =>
    unfold Sheet.writeRow at ht
    split at ht
    · exact ih h ht
    · dsimp only at ht
      split at ht
      · exact ih (hp _ text h) ht
      · cases ht

theorem writeRows_keeps {s t : Sheet} (h : p s) {row : Nat} {table : List (List String)}
    (ht : s.writeRows row table = .ok t) : p t := by
  induction table generalizing s row with
  | nil =>
    cases ht
    exact h
  | cons texts rest ih =>
    unfold Sheet.writeRows at ht
    cases hw : s.writeRow row.toUInt32 0 texts with
    | error e =>
      rw [hw] at ht
      cases ht
    | ok u =>
      rw [hw] at ht
      exact ih (writeRow_keeps hp h hw) ht

/-- What holds of the sheets without cells and is kept by writes of typed text
holds of a sheet made from a table of texts. -/
theorem ofTable_keeps (hnew : ∀ rows cols, p (ofBounds rows cols)) {table : List (List String)}
    {s : Sheet} (h : ofTable table = .ok s) : p s := by
  unfold Sheet.ofTable at h
  dsimp only at h
  split at h
  · cases h
  · split at h
    · cases h
    · exact writeRows_keeps hp (hnew _ _) h

end

/-- The sheets that are made without an operation: of a size, or from a
table of texts. -/
inductive Initial : Sheet → Prop
  | ofBounds (rows cols : UInt32) : Initial (ofBounds rows cols)
  | ofTable {table : List (List String)} {s : Sheet} (h : ofTable table = .ok s) : Initial s

/-- What edits that move no lines keep holds of the sheets an operation can be
first carried out on. -/
theorem Steady.initial {p : Sheet → Prop} (hp : Steady p) (hnew : ∀ rows cols, p (.ofBounds rows cols))
    {s : Sheet} (h : s.Initial) : p s := by
  cases h with
  | ofBounds rows cols => exact hnew rows cols
  | ofTable h => exact ofTable_keeps (p := p) (fun a text h => hp.setInput h a text) hnew h

theorem Initial.reachable {s : Sheet} (h : s.Initial) : s.Reachable := by
  cases h with
  | ofBounds rows cols => exact .ofBounds rows cols
  | ofTable h => exact ofTable_keeps (p := Reachable) (fun a text h => h.setInput a text) .ofBounds h

/-- The sheet after operations, each with the clock it asks. -/
def after (s : Sheet) (steps : List (Clock × Operation)) : Sheet :=
  steps.foldl (fun s (clock, op) => (op.run clock s).sheet) s

theorem Reachable.after {s : Sheet} (h : s.Reachable) (steps : List (Clock × Operation)) :
    (s.after steps).Reachable := by
  induction steps generalizing s with
  | nil => exact h
  | cons step steps ih => exact ih (h.run step.1 step.2)

end Sheet

end Spreadsheet

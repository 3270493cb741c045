import Spreadsheet.Proofs.Sheet.Bounds

/-
  Typing texts into a sheet.

  What a typed text makes of a cell depends on the text alone (`Cell.ofTyped`),
  and typing it leaves the other cells and the size of the sheet. So a list of
  texts that are typed inside the grid leaves at every address the cell of the
  last text for it, and the cell that stood there if there is none.
-/

namespace Spreadsheet

/-- The cell that typed text makes: a formula cell, or one with the value that
the text stands for. -/
def Cell.ofTyped (text : String) : Cell :=
  if Sheet.isFormulaInput text then .ofContent .empty (some text)
  else .ofContent (.ofInput text) none

namespace Sheet

def typed (s : Sheet) (a : Address) (text : String) : Sheet :=
  { s with
    cells := s.cells.insert a (Cell.ofTyped text)
    formulas := match (Cell.ofTyped text).formula with
      | some formula => s.formulas.insert a formula
      | none => s.formulas.erase a }

def typedAll (s : Sheet) (texts : List (Address × String)) : Sheet :=
  texts.foldl (fun s (a, text) => s.typed a text) s

variable {s : Sheet} {a b : Address} {text : String}

theorem setInput_of_inBounds (h : s.inBounds a = true) :
    s.setInput a text = ⟨s.typed a text, .ok (Cell.ofTyped text), s.listeners.map (⟨·, a⟩)⟩ := by
  unfold Sheet.setInput Sheet.typed Cell.ofTyped
  split
  · exact if_pos h
  · exact if_pos h

theorem setInput_of_not_inBounds (h : ¬ s.inBounds a = true) :
    s.setInput a text = ⟨s, .error (.outOfBounds a s.rows s.cols), []⟩ := by
  unfold Sheet.setInput
  split
  · exact setCell_of_not_inBounds h _ _
  · exact setCell_of_not_inBounds h _ _

theorem getElem?_typed (s : Sheet) (a b : Address) (text : String) :
    (s.typed a text).cells[b]? = if a = b then some (Cell.ofTyped text) else s.cells[b]? := by
  rw [Sheet.typed, Std.ExtTreeMap.getElem?_insert]
  by_cases hab : a = b
  · rw [if_pos hab, if_pos (hab ▸ Std.ReflCmp.compare_self)]
  · rw [if_neg hab, if_neg fun h => hab (Std.LawfulEqOrd.eq_of_compare h)]

theorem typedAll_cons (s : Sheet) (a : Address) (text : String) (texts : List (Address × String)) :
    s.typedAll ((a, text) :: texts) = (s.typed a text).typedAll texts := rfl

theorem typedAll_append (s : Sheet) (texts texts' : List (Address × String)) :
    s.typedAll (texts ++ texts') = (s.typedAll texts).typedAll texts' := List.foldl_append

theorem size_typedAll (s : Sheet) (texts : List (Address × String)) :
    (s.typedAll texts).rows = s.rows ∧ (s.typedAll texts).cols = s.cols := by
  induction texts generalizing s with
  | nil => exact ⟨rfl, rfl⟩
  | cons entry texts ih => exact ih (s.typed entry.1 entry.2)

theorem getElem?_typedAll_of_notMem {texts : List (Address × String)} (h : a ∉ texts.map Prod.fst) :
    (s.typedAll texts).cells[a]? = s.cells[a]? := by
  induction texts generalizing s with
  | nil => rfl
  | cons entry texts ih =>
    obtain ⟨b, text⟩ := entry
    rw [List.map_cons, List.mem_cons, not_or] at h
    rw [typedAll_cons, ih h.2, getElem?_typed, if_neg (Ne.symm h.1)]

theorem getElem?_typedAll_of_last {before after : List (Address × String)}
    (h : a ∉ after.map Prod.fst) :
    (s.typedAll (before ++ (a, text) :: after)).cells[a]? = some (Cell.ofTyped text) := by
  rw [typedAll_append, typedAll_cons, getElem?_typedAll_of_notMem h, getElem?_typed, if_pos rfl]

end Sheet

end Spreadsheet

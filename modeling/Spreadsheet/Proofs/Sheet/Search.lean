import Spreadsheet.Proofs.Address.Range
import Spreadsheet.Proofs.Sheet.Steps
import Spreadsheet.Proofs.Text.SmallLetters
import Spreadsheet.Sheet.Search

/-
  What a search finds.

  A search finds the first hit from where it starts, row by row, and nothing only
  if there is no hit (`isHit_of_find?`, `find?_eq_none_iff`). Whether a cell is
  a hit without regard to case is decided on small letters, so a hit with regard
  to case is one without, if the text that is looked for has the same small
  letters wherever it stands. For other texts the search without regard to case
  can miss what the other one finds (`find?_of_sensitive`).
-/

namespace Spreadsheet.Sheet

/-- Whether the cell at an address is one that a search may find. -/
def IsHit (s : Sheet) (text : String) (first : Address) (caseSensitive : Bool) (a : Address) : Prop :=
  (compare first a).isLE = true ∧ ∃ cell, s.cells[a]? = some cell ∧ holdsText caseSensitive text cell = true

variable {s : Sheet} {text : String} {first a : Address} {caseSensitive : Bool}

theorem isHit_of_find? (h : s.find? text first caseSensitive = some a) :
    text ≠ "" ∧ s.IsHit text first caseSensitive a ∧
      ∀ b, s.IsHit text first caseSensitive b → (compare a b).isLE = true := by
  unfold find? at h
  split at h
  · cases h
  · rename_i hne
    obtain ⟨⟨a', cell⟩, hfound, rfl⟩ := Option.map_eq_some_iff.1 h
    obtain ⟨hhit, before, after, hcells, hbefore⟩ := List.find?_eq_some_iff_append.1 hfound
    rw [Bool.and_eq_true] at hhit
    have hcell : (a', cell) ∈ s.cells.toList := hcells ▸ List.mem_append_right _ List.mem_cons_self
    refine ⟨by simpa using hne, ⟨hhit.1, cell, Std.ExtTreeMap.mem_toList_iff_getElem?_eq_some.1 hcell, hhit.2⟩, ?_⟩
    rintro b ⟨hfirst, cell', hcell', htext⟩
    have hmem : (b, cell') ∈ before ++ (a', cell) :: after :=
      hcells ▸ Std.ExtTreeMap.mem_toList_iff_getElem?_eq_some.2 hcell'
    rcases List.mem_append.1 hmem with hmem | hmem
    · have hmissed := hbefore _ hmem
      simp [hfirst, htext] at hmissed
    · rcases List.mem_cons.1 hmem with heq | hmem
      · cases heq
        have hself : compare a' a' = .eq := Std.ReflCmp.compare_self
        rw [hself]
        rfl
      · have hordered := s.cells.ordered_keys_toList
        rw [hcells] at hordered
        have hlt := List.rel_of_pairwise_cons (List.pairwise_append.1 hordered).2.1 hmem
        rw [hlt]
        rfl

theorem find?_eq_none_iff : s.find? text first caseSensitive = none ↔
    text = "" ∨ ∀ a, ¬ s.IsHit text first caseSensitive a := by
  unfold find?
  split
  · rename_i hempty
    exact iff_of_true rfl (.inl (by simpa using hempty))
  · rename_i hne
    have hne : text ≠ "" := by simpa using hne
    simp only [Option.map_eq_none_iff, List.find?_eq_none, hne, false_or]
    constructor
    · rintro h a ⟨hfirst, cell, hcell, htext⟩
      have hmissed := h (a, cell) (Std.ExtTreeMap.mem_toList_iff_getElem?_eq_some.2 hcell)
      simp [hfirst, htext] at hmissed
    · rintro h ⟨a, cell⟩ hmem hhit
      rw [Bool.and_eq_true] at hhit
      exact h a ⟨hhit.1, cell, Std.ExtTreeMap.mem_toList_iff_getElem?_eq_some.1 hmem, hhit.2⟩

theorem holdsText_iff {cell : Cell} : holdsText caseSensitive text cell = true ↔
    ∃ t ∈ cell.display :: cell.formula.toList, folded caseSensitive text <:+: folded caseSensitive t := by
  simp only [holdsText, Bool.or_eq_true, Text.occursIn_iff, Option.any_eq_true]
  cases cell.formula <;> simp

def showing (t : String) : Sheet :=
  ((Operation.setCell ⟨0, 0⟩ (.text t) none).run .epoch (ofBounds 1 1)).sheet

theorem getElem?_showing (t : String) (a : Address) :
    (showing t).cells[a]? = if (⟨0, 0⟩ : Address) = a then some (Cell.ofContent (.text t) none) else none := by
  show ((∅ : Grid Cell).insert ⟨0, 0⟩ (Cell.ofContent (.text t) none))[a]? = _
  rw [Std.ExtTreeMap.getElem?_insert, Std.ExtTreeMap.getElem?_empty]
  by_cases ha : (⟨0, 0⟩ : Address) = a
  · rw [if_pos ha, if_pos (ha ▸ Std.ReflCmp.compare_self)]
  · rw [if_neg ha, if_neg fun h => ha (Std.LawfulEqOrd.eq_of_compare h)]

theorem isHit_showing {t : String} : (showing t).IsHit text ⟨0, 0⟩ caseSensitive a ↔
    a = ⟨0, 0⟩ ∧ folded caseSensitive text <:+: folded caseSensitive t := by
  constructor
  · rintro ⟨-, cell, hcell, htext⟩
    rw [getElem?_showing] at hcell
    split at hcell
    · rename_i ha
      cases hcell
      obtain ⟨t', ht', hin⟩ := holdsText_iff.1 htext
      obtain rfl : t' = t := by
        simpa [Cell.display, Cell.computedDisplay, Cell.ofContent, CellValue.isEmpty, CellValue.display] using ht'
      exact ⟨ha.symm, hin⟩
    · cases hcell
  · rintro ⟨rfl, hin⟩
    refine ⟨by decide, _, (getElem?_showing t _).trans (if_pos rfl), holdsText_iff.2 ⟨t, ?_, hin⟩⟩
    exact List.mem_cons_self

/-- Where a search with regard to case finds something, one without finds
something no later, whatever the sheet: exactly for the texts that decide their
sigmas. -/
theorem find?_of_sensitive (text : String) :
    (∀ (s : Sheet) (first a : Address), s.find? text first true = some a →
      ∃ b, s.find? text first false = some b ∧ (compare b a).isLE = true) ↔
    Text.decidesSigmas [] text.toList = true := by
  rw [← Text.forall_lower_infix_iff]
  constructor
  · intro h cs hin
    by_cases hempty : text = ""
    · rw [hempty]
      exact List.nil_infix
    -- the search in a sheet that shows the one text
    · have hhit : (showing (String.ofList cs)).IsHit text ⟨0, 0⟩ true ⟨0, 0⟩ := by
        refine isHit_showing.2 ⟨rfl, ?_⟩
        rwa [folded, folded, if_pos rfl, if_pos rfl, String.toList_ofList]
      cases ha : (showing (String.ofList cs)).find? text ⟨0, 0⟩ true with
      | none => exact absurd hhit ((find?_eq_none_iff.1 ha).resolve_left hempty ⟨0, 0⟩)
      | some a =>
        obtain ⟨b, hb, -⟩ := h _ _ a ha
        obtain ⟨-, hin⟩ := isHit_showing.1 (isHit_of_find? hb).2.1
        rwa [folded, folded, if_neg (by decide), if_neg (by decide), String.toList_ofList] at hin
  · intro hlower s first a ha
    obtain ⟨hne, ⟨hfirst, cell, hcell, htext⟩, -⟩ := isHit_of_find? ha
    have hhit : s.IsHit text first false a := by
      obtain ⟨t, ht, hin⟩ := holdsText_iff.1 htext
      exact ⟨hfirst, cell, hcell, holdsText_iff.2 ⟨t, ht, hlower t.toList hin⟩⟩
    cases hb : s.find? text first false with
    | none => exact absurd hhit ((find?_eq_none_iff.1 hb).resolve_left hne a)
    | some b => exact ⟨b, rfl, (isHit_of_find? hb).2.2 a hhit⟩

/-- The sigma is inside a word where it stands, and at the end of the text that is
looked for. -/
theorem find?_of_sensitive_sigma :
    (showing "ΑΣΒ").find? "ΑΣ" ⟨0, 0⟩ true = some ⟨0, 0⟩ ∧ (showing "ΑΣΒ").find? "ΑΣ" ⟨0, 0⟩ false = none := by
  constructor <;> decide +kernel

end Spreadsheet.Sheet

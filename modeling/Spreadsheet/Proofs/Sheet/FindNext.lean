import Spreadsheet.Proofs.Sheet.Bounds
import Spreadsheet.Proofs.Sheet.Search

/-
  Searching on behind each hit.

  A search that goes on in the column behind the hit it found finds the next one,
  for the hits are in row-major order and nothing stands between an address and
  the one on its right. So going on until nothing is found gives every hit once,
  in this order (`findsEach_eq_hits`); in a grid there is always a column to go
  on in, as no cell stands on the last line of all.
-/

namespace Spreadsheet

namespace Address

def right? (a : Address) : Option Address := a.mapCol? (checkedAdd · 1)

theorem isLE_iff_not_before {a b : Address} : (compare a b).isLE = true ↔ ¬ b.Before a := by
  have hswap : compare b a = (compare a b).swap := Std.OrientedCmp.eq_swap
  rw [Before, hswap]
  cases compare a b <;> decide

theorem zero_isLE (a : Address) : (compare (⟨0, 0⟩ : Address) a).isLE = true := by
  rw [isLE_iff_not_before, before_iff]
  simp only [UInt32.lt_iff_toNat_lt, UInt32.toNat_zero]
  omega

theorem isLE_right_iff {a b c : Address} (h : a.right? = some b) : (compare b c).isLE = true ↔ a.Before c := by
  obtain ⟨col, hcol, rfl⟩ := Option.map_eq_some_iff.1 h
  have hnext := toNat_of_checkedAdd hcol
  rw [UInt32.toNat_one] at hnext
  rw [isLE_iff_not_before, before_iff, before_iff]
  simp only [UInt32.lt_iff_toNat_lt, ← UInt32.toNat_inj, hnext]
  omega

end Address

namespace Sheet

/-- The addresses of the cells that hold the text, from an address on and row by
row. -/
def hits (s : Sheet) (text : String) (first : Address) (caseSensitive : Bool) : List Address :=
  (s.cells.toList.filter fun (a, cell) =>
    (compare first a).isLE && holdsText caseSensitive text cell).map Prod.fst

/-- The addresses that searches find one after another, each search going on
behind the address that was found before, until one finds nothing. -/
inductive FindsEach (s : Sheet) (text : String) (caseSensitive : Bool) : Address → List Address → Prop
  | done {first : Address} (h : s.find? text first caseSensitive = none) :
    FindsEach s text caseSensitive first []
  | found {first a next : Address} {rest : List Address} (h : s.find? text first caseSensitive = some a)
    (hnext : a.right? = some next) (hrest : FindsEach s text caseSensitive next rest) :
    FindsEach s text caseSensitive first (a :: rest)

variable {s : Sheet} {text : String} {first a : Address} {caseSensitive : Bool}

theorem FindsEach.unique {found found' : List Address} (h : s.FindsEach text caseSensitive first found)
    (h' : s.FindsEach text caseSensitive first found') : found = found' := by
  induction h generalizing found' with
  | done hnone =>
    cases h' with
    | done => rfl
    | found hsome => cases hnone.symm.trans hsome
  | found hsome hnext hrest ih =>
    cases h' with
    | done hnone => cases hnone.symm.trans hsome
    | found hsome' hnext' hrest' =>
      cases hsome.symm.trans hsome'
      cases hnext.symm.trans hnext'
      rw [ih hrest']

/-! ## The hits -/

theorem mem_hits : a ∈ s.hits text first caseSensitive ↔ s.IsHit text first caseSensitive a := by
  simp only [hits, IsHit, List.mem_map, List.mem_filter, Bool.and_eq_true, Prod.exists, exists_and_right,
    exists_eq_right, Std.ExtTreeMap.mem_toList_iff_getElem?_eq_some]
  constructor
  · rintro ⟨cell, hcell, hfirst, htext⟩
    exact ⟨hfirst, cell, hcell, htext⟩
  · rintro ⟨hfirst, cell, hcell, htext⟩
    exact ⟨cell, hcell, hfirst, htext⟩

theorem pairwise_hits (s : Sheet) (text : String) (first : Address) (caseSensitive : Bool) :
    (s.hits text first caseSensitive).Pairwise Address.Before :=
  List.pairwise_map.2 (s.cells.ordered_keys_toList.filter _)

theorem find?_eq_head?_hits (h : text ≠ "") :
    s.find? text first caseSensitive = (s.hits text first caseSensitive).head? := by
  rw [find?, if_neg (by simpa using h), hits, List.head?_map, List.head?_filter]

/-- The hits behind the first one are those from the address on its right on. -/
theorem hits_right {next : Address} {rest : List Address} (h : s.hits text first caseSensitive = a :: rest)
    (hnext : a.right? = some next) : s.hits text next caseSensitive = rest := by
  have hsorted := pairwise_hits s text first caseSensitive
  rw [h] at hsorted
  obtain ⟨hbehind, hrest⟩ := List.pairwise_cons.1 hsorted
  refine (pairwise_hits s text next caseSensitive).eq_of_mem_iff hrest fun b => ?_
  have hmem : b ∈ a :: rest ↔ s.IsHit text first caseSensitive b := by rw [← h, mem_hits]
  rw [mem_hits, IsHit, Address.isLE_right_iff hnext]
  constructor
  · rintro ⟨hbefore, hholds⟩
    have hfirst : (compare first b).isLE = true := by
      have ha : (compare first a).isLE = true := (mem_hits.1 (h ▸ List.mem_cons_self)).1
      have hle : (compare a b).isLE = true := by rw [hbefore]; rfl
      exact Std.TransCmp.isLE_trans ha hle
    rcases List.mem_cons.1 (hmem.2 ⟨hfirst, hholds⟩) with rfl | hb
    · exact absurd hbefore (Std.Irrefl.irrefl b)
    · exact hb
  · intro hb
    exact ⟨hbehind b hb, (hmem.1 (List.mem_cons_of_mem a hb)).2⟩

theorem Within.exists_right (hs : s.Within) {cell : Cell} (hcell : s.cells[a]? = some cell) :
    ∃ next, a.right? = some next := by
  obtain ⟨-, hcol⟩ := inBounds_iff.1 (hs a cell hcell)
  rw [UInt32.lt_iff_toNat_lt] at hcol
  have hroom : a.col.toNat + (1 : UInt32).toNat < UInt32.size :=
    lt_of_le_of_lt hcol s.cols.toNat_lt
  exact ⟨_, congrArg (Option.map _) (if_pos hroom)⟩

theorem Within.findsEach_hits (hs : s.Within) (hne : text ≠ "") (first : Address) (caseSensitive : Bool) :
    s.FindsEach text caseSensitive first (s.hits text first caseSensitive) := by
  -- on the hits that are left
  generalize h : s.hits text first caseSensitive = found
  induction found generalizing first with
  | nil => exact .done (by rw [find?_eq_head?_hits hne, h, List.head?_nil])
  | cons a rest ih =>
    obtain ⟨-, cell, hcell, -⟩ := mem_hits.1 (h ▸ List.mem_cons_self)
    obtain ⟨next, hnext⟩ := hs.exists_right hcell
    exact .found (by rw [find?_eq_head?_hits hne, h, List.head?_cons]) hnext (ih next (hits_right h hnext))

/-- Searching on from the start of a grid finds every cell that shows the text or
has it in its formula, each of them once and row by row, and then ends. -/
theorem findsEach_eq_hits (hs : s.Within) (hne : text ≠ "") (caseSensitive : Bool) :
    (∀ found, s.FindsEach text caseSensitive ⟨0, 0⟩ found ↔ found = s.hits text ⟨0, 0⟩ caseSensitive) ∧
    (s.hits text ⟨0, 0⟩ caseSensitive).Pairwise Address.Before ∧
    ∀ a, a ∈ s.hits text ⟨0, 0⟩ caseSensitive ↔ ∃ cell, s.cells[a]? = some cell ∧
      ∃ t ∈ cell.display :: cell.formula.toList, folded caseSensitive text <:+: folded caseSensitive t := by
  have hfound := hs.findsEach_hits hne ⟨0, 0⟩ caseSensitive
  refine ⟨fun found => ⟨fun h => h.unique hfound, ?_⟩, pairwise_hits _ _ _ _, fun a => ?_⟩
  · rintro rfl
    exact hfound
  · simp only [mem_hits, IsHit, Address.zero_isLE, true_and, holdsText_iff]

/-- A text, a formula whose result shows the text, and one that has it in its own,
among other cells. -/
def summing : List (Clock × Operation) :=
  [(.epoch, .setInput ⟨2, 1⟩ "=SUM(C1:C2)"), (.epoch, .setInput ⟨0, 2⟩ "Summe"), (.epoch, .setInput ⟨1, 0⟩ "12"),
    (.epoch, .setInput ⟨1, 2⟩ "=C1"), (.epoch, .setResult ⟨1, 2⟩ (.text "summary"))]

theorem findsEach_summing :
    ((ofBounds 3 3).after summing).FindsEach "sum" false ⟨0, 0⟩ [⟨0, 2⟩, ⟨1, 2⟩, ⟨2, 1⟩] := by
  have hstored : ∀ stored ∈ ((ofBounds 3 3).after summing).cells.toList,
      ((ofBounds 3 3).after summing).inBounds stored.1 = true := by
    decide +kernel
  have hwithin : ((ofBounds 3 3).after summing).Within := fun a cell hcell =>
    hstored (a, cell) (Std.ExtTreeMap.mem_toList_iff_getElem?_eq_some.2 hcell)
  obtain ⟨hfound, -⟩ := findsEach_eq_hits hwithin (by decide : "sum" ≠ "") false
  exact (hfound _).2 (by decide +kernel)

end Sheet

end Spreadsheet

import Spreadsheet.CommandLine
import Spreadsheet.Proofs.Sheet.Typing

/-
  The sheet of a command.

  The cells of a command are typed into a sheet that is made large enough for
  them, whichever way their addresses are spelled. The one exception is the last
  line: it has a name, but no sheet has that many lines, so a cell there is
  refused, and with it the command. Any other list of cells is carried out, and
  leaves just these cells, each with the last text for it (`sheetOf_accepted`).
-/

namespace Spreadsheet.CommandLine

open Sheet (inBounds_iff)

/-! ## The size of the sheet -/

theorem le_foldl_max (f : Address → UInt32) (n : UInt32) (addresses : List Address) :
    ∀ a ∈ addresses, (f a).toNat ≤ (addresses.foldl (fun n a => max n (f a)) n).toNat := by
  have hfold := Range.foldl_lt_iff (fun n a => Range.toNat_max n (f a)) addresses n
  exact fun a ha => Nat.le_of_lt_succ (((hfold _).1 (Nat.lt_succ_self _)).2 a ha)

theorem lt_saturatingAdd_one {line : UInt32} (h : line ≠ lastLine) :
    line.toNat < (saturatingAdd line 1).toNat := by
  have hone : (1 : UInt32).toNat = 1 := rfl
  have hle := toNat_le_lastLine line
  rw [Ne, ← UInt32.toNat_inj] at h
  rw [toNat_saturatingAdd]
  omega

/-- Whether an address is on the last line, of the rows or of the columns. -/
def OnLastLine (a : Address) : Prop := a.row = lastLine ∨ a.col = lastLine

/-- The sheet is large enough for every address, except for those that no sheet is
large enough for. -/
theorem inBounds_sheetFor {addresses : List Address} {a : Address} (ha : a ∈ addresses) :
    (sheetFor addresses).inBounds a = true ↔ ¬ OnLastLine a := by
  rw [inBounds_iff, OnLastLine, not_or]
  constructor
  · rintro ⟨hrow, hcol⟩
    exact ⟨fun h => not_lastLine_lt _ (h ▸ hrow), fun h => not_lastLine_lt _ (h ▸ hcol)⟩
  · rintro ⟨hrow, hcol⟩
    have hrows := le_foldl_max (fun a => saturatingAdd a.row 1) defaultRows addresses a ha
    have hcols := le_foldl_max (fun a => saturatingAdd a.col 1) defaultCols addresses a ha
    rw [UInt32.lt_iff_toNat_lt, UInt32.lt_iff_toNat_lt]
    exact ⟨Nat.lt_of_lt_of_le (lt_saturatingAdd_one hrow) hrows,
      Nat.lt_of_lt_of_le (lt_saturatingAdd_one hcol) hcols⟩

/-! ## Reading and writing the cells -/

def addressOf (name : String) : Address := (Address.ofName name.toList).toOption.getD ⟨0, 0⟩

theorem addressOf_eq {name : String} {a : Address} (h : Address.ofName name.toList = .ok a) :
    addressOf name = a := by
  rw [addressOf, h]
  rfl

theorem ofName_addressOf {name : String} (h : ∃ a, Address.ofName name.toList = .ok a) :
    Address.ofName name.toList = .ok (addressOf name) := by
  obtain ⟨a, ha⟩ := h
  rw [addressOf_eq ha, ha]

/-- The texts of a command with the addresses of their cells. -/
def textsOf (cells : List (String × String)) : List (Address × String) :=
  cells.map fun c => (addressOf c.1, c.2)

theorem textsOf_cons {name : String} {a : Address} (h : Address.ofName name.toList = .ok a)
    (text : String) (cells : List (String × String)) :
    textsOf ((name, text) :: cells) = (a, text) :: textsOf cells := by
  rw [textsOf, List.map_cons, addressOf_eq h]
  rfl

theorem textsOf_append (cells cells' : List (String × String)) :
    textsOf (cells ++ cells') = textsOf cells ++ textsOf cells' := List.map_append

theorem mapM_readAddress {cells : List (String × String)}
    (h : ∀ c ∈ cells, ∃ a, Address.ofName c.1.toList = .ok a) :
    (cells.mapM fun (address, text) => do return (← readAddress address, text) :
      Except Failure (List (Address × String))) = .ok (textsOf cells) := by
  induction cells with
  | nil => rfl
  | cons c cells ih =>
    obtain ⟨name, text⟩ := c
    obtain ⟨a, ha⟩ := h (name, text) List.mem_cons_self
    have hread : readAddress name = .ok a := by
      rw [readAddress, ha]
      rfl
    rw [List.mapM_cons, ih fun c hc => h c (List.mem_cons_of_mem _ hc), textsOf_cons ha]
    simp [hread]
    rfl

variable {s t : Sheet} {a : Address}

theorem typeCell_of_inBounds (h : s.inBounds a = true) (text : String) :
    typeCell s a text = .ok (s.typed a text) := by
  rw [typeCell, Sheet.setInput_of_inBounds h]

theorem typeCell_of_not_inBounds (h : ¬ s.inBounds a = true) (text : String) :
    ∃ failure, typeCell s a text = .error failure := by
  rw [typeCell, Sheet.setInput_of_not_inBounds h]
  exact ⟨_, rfl⟩

theorem foldlM_typeCell {cells : List (Address × String)} (h : ∀ c ∈ cells, s.inBounds c.1 = true) :
    cells.foldlM (fun s (a, text) => typeCell s a text) s = .ok (s.typedAll cells) := by
  induction cells generalizing s with
  | nil => rfl
  | cons c cells ih =>
    obtain ⟨b, text⟩ := c
    rw [List.foldlM_cons]
    dsimp only
    rw [typeCell_of_inBounds (h (b, text) List.mem_cons_self)]
    exact ih fun c hc => h c (List.mem_cons_of_mem _ hc)

/-- A text for a cell outside of it is refused, whatever was typed before. -/
theorem foldlM_typeCell_ne_ok {cells : List (Address × String)} {c : Address × String} (hc : c ∈ cells)
    (hout : ¬ s.inBounds c.1 = true) : cells.foldlM (fun s (a, text) => typeCell s a text) s ≠ .ok t := by
  -- typing leaves the size, so the cell is outside of the later sheets too
  induction cells generalizing s with
  | nil => cases hc
  | cons first cells ih =>
    obtain ⟨b, text⟩ := first
    rw [List.foldlM_cons]
    dsimp only
    by_cases hin : s.inBounds b = true
    · rw [typeCell_of_inBounds hin]
      rcases List.mem_cons.1 hc with rfl | hc
      · exact absurd hin hout
      · exact ih (s := s.typed b text) hc hout
    · obtain ⟨failure, hfailure⟩ := typeCell_of_not_inBounds hin text
      rw [hfailure]
      exact nofun

section

variable {cells : List (String × String)} (hcells : ∀ c ∈ cells, ∃ a, Address.ofName c.1.toList = .ok a)

include hcells

theorem sheetOf_eq : sheetOf cells = (textsOf cells).foldlM (fun s (a, text) => typeCell s a text)
    (sheetFor ((textsOf cells).map Prod.fst)) := by
  rw [sheetOf, mapM_readAddress hcells]
  rfl

/-- The command is carried out exactly if no cell is on the last line, and then
its texts are typed into the sheet. -/
theorem sheetOf_eq_ok {s : Sheet} : sheetOf cells = .ok s ↔
    (∀ c ∈ textsOf cells, ¬ OnLastLine c.1) ∧
      s = (sheetFor ((textsOf cells).map Prod.fst)).typedAll (textsOf cells) := by
  have hin : ∀ c ∈ textsOf cells,
      ((sheetFor ((textsOf cells).map Prod.fst)).inBounds c.1 = true ↔ ¬ OnLastLine c.1) :=
    fun c hc => inBounds_sheetFor (List.mem_map_of_mem hc)
  rw [sheetOf_eq hcells]
  constructor
  · intro hok
    have hlines : ∀ c ∈ textsOf cells, ¬ OnLastLine c.1 := by
      intro c hc hlast
      have hout := (hin c hc).not.2 (not_not.2 hlast)
      exact foldlM_typeCell_ne_ok hc hout hok
    rw [foldlM_typeCell fun c hc => (hin c hc).2 (hlines c hc)] at hok
    exact ⟨hlines, (Except.ok.inj hok).symm⟩
  · rintro ⟨hlines, rfl⟩
    exact foldlM_typeCell fun c hc => (hin c hc).2 (hlines c hc)

theorem notMem_textsOf {a : Address} (h : ∀ c ∈ cells, Address.ofName c.1.toList ≠ .ok a) :
    a ∉ (textsOf cells).map Prod.fst := by
  intro hmem
  simp only [textsOf, List.map_map, List.mem_map, Function.comp] at hmem
  obtain ⟨c, hc, rfl⟩ := hmem
  exact h c hc (ofName_addressOf (hcells c hc))

end

/-- A command whose cells all have an address is carried out exactly if none of
them is on the last line. Its sheet has a cell where one of them names it and
nowhere else, and this is the cell that typing the last text for it makes,
whichever way its address is spelled. -/
theorem sheetOf_accepted {cells : List (String × String)}
    (hcells : ∀ c ∈ cells, ∃ a, Address.ofName c.1.toList = .ok a) :
    ((∃ s, sheetOf cells = .ok s) ↔
      ∀ c ∈ cells, ∀ a, Address.ofName c.1.toList = .ok a → a.row ≠ lastLine ∧ a.col ≠ lastLine) ∧
    ∀ s, sheetOf cells = .ok s → ∀ a,
      ((∀ c ∈ cells, Address.ofName c.1.toList ≠ .ok a) → s.cells[a]? = none) ∧
      ∀ before name text after, cells = before ++ (name, text) :: after →
        Address.ofName name.toList = .ok a → (∀ c ∈ after, Address.ofName c.1.toList ≠ .ok a) →
        ∃ cell, ((Sheet.ofBounds s.rows s.cols).setInput a text).cell = .ok cell ∧ s.cells[a]? = some cell := by
  constructor
  · constructor
    · rintro ⟨s, hs⟩ c hc a ha
      have hlines := ((sheetOf_eq_ok hcells).1 hs).1 (addressOf c.1, c.2) (List.mem_map_of_mem hc)
      rwa [OnLastLine, not_or, addressOf_eq ha] at hlines
    · intro hlines
      refine ⟨_, (sheetOf_eq_ok hcells).2 ⟨fun c' hc' => ?_, rfl⟩⟩
      obtain ⟨c, hc, rfl⟩ := List.mem_map.1 hc'
      rw [OnLastLine, not_or]
      exact hlines c hc _ (ofName_addressOf (hcells c hc))
  · intro s hs a
    obtain ⟨hlines, rfl⟩ := (sheetOf_eq_ok hcells).1 hs
    constructor
    · intro hnone
      rw [Sheet.getElem?_typedAll_of_notMem (notMem_textsOf hcells hnone)]
      exact Std.ExtTreeMap.getElem?_empty
    · rintro before name text after rfl ha hafter
      have htexts : textsOf (before ++ (name, text) :: after) = textsOf before ++ (a, text) :: textsOf after := by
        rw [textsOf_append, textsOf_cons ha]
      have hmem : (a, text) ∈ textsOf (before ++ (name, text) :: after) := by
        rw [htexts]
        exact List.mem_append_right _ List.mem_cons_self
      have hin := (inBounds_sheetFor (List.mem_map_of_mem hmem)).2 (hlines _ hmem)
      obtain ⟨hrows, hcols⟩ := Sheet.size_typedAll (sheetFor
        ((textsOf (before ++ (name, text) :: after)).map Prod.fst)) (textsOf (before ++ (name, text) :: after))
      refine ⟨Cell.ofTyped text, ?_, ?_⟩
      · rw [Sheet.setInput_of_inBounds]
        rw [inBounds_iff] at hin ⊢
        rw [hrows, hcols]
        exact hin
      · rw [htexts]
        refine Sheet.getElem?_typedAll_of_last (notMem_textsOf (fun c hc => ?_) hafter)
        exact hcells c (List.mem_append_right _ (List.mem_cons_of_mem _ hc))

/-- Two spellings of one address, and the last line but one. -/
def spellings : List (String × String) :=
  [("a1", "1"), ("MWLQKWU4294967295", "=A1"), ("A01", "x")]

theorem sheetOf_accepted_spellings :
    ∃ s, sheetOf spellings = .ok s ∧
      ∃ cell, ((Sheet.ofBounds s.rows s.cols).setInput ⟨0, 0⟩ "x").cell = .ok cell ∧
        s.cells[(⟨0, 0⟩ : Address)]? = some cell := by
  have hfirst : Address.ofName "a1".toList = .ok ⟨0, 0⟩ := by rfl
  have hfar : Address.ofName "MWLQKWU4294967295".toList = .ok ⟨4294967294, 4294967294⟩ := by rfl
  have hagain : Address.ofName "A01".toList = .ok ⟨0, 0⟩ := by rfl
  have hread : ∀ c ∈ spellings, ∃ a, Address.ofName c.1.toList = .ok a := by
    simp only [spellings, List.forall_mem_cons]
    exact ⟨⟨_, hfirst⟩, ⟨_, hfar⟩, ⟨_, hagain⟩, fun _ => nofun⟩
  obtain ⟨hcarried, hcells⟩ := sheetOf_accepted hread
  obtain ⟨s, hs⟩ := hcarried.2 (by
    simp only [spellings, List.forall_mem_cons, hfirst, hfar, hagain, Except.ok.injEq, forall_eq']
    exact ⟨by decide, by decide, by decide, fun _ => nofun⟩)
  exact ⟨s, hs, (hcells s hs ⟨0, 0⟩).2 (spellings.take 2) "A01" "x" [] rfl hagain (fun _ => nofun)⟩

/-- The last row has a name, but nothing can be typed there. -/
theorem sheetOf_last_line :
    (∀ c ∈ [("A4294967296", "x")], ∃ a, Address.ofName c.1.toList = .ok a) ∧
      ¬ ∃ s, sheetOf [("A4294967296", "x")] = .ok s := by
  have hlast : Address.ofName "A4294967296".toList = .ok ⟨4294967295, 0⟩ := by rfl
  have hread : ∀ c ∈ [("A4294967296", "x")], ∃ a, Address.ofName c.1.toList = .ok a := by
    simp only [List.forall_mem_cons]
    exact ⟨⟨_, hlast⟩, fun _ => nofun⟩
  refine ⟨hread, ?_⟩
  rintro ⟨s, hs⟩
  have hlines := ((sheetOf_eq_ok hread).1 hs).1 _ List.mem_cons_self
  dsimp only at hlines
  rw [addressOf_eq hlast] at hlines
  exact hlines (.inl rfl)

end Spreadsheet.CommandLine

import Spreadsheet.Proofs.Sheet.NormalForm

/-
  Sheets and tables of texts.

  A sheet is made from every table that has a number of rows and of columns, and
  it has the cell of each text that is not blank, at its place, and no other
  (`ofTable_of_numbered`). The table of a sheet reaches to the last row and the last
  column in use, with the display text of every cell. As these texts, typed, make
  cells with the same display texts, the table of a sheet that was made from one
  is a normal form: the sheet that is made from it has this table again
  (`toTable_ofTable`).
-/

namespace Spreadsheet.Sheet

variable {s t : Sheet} {a : Address}

/-! ## Writing tables -/

/-- The cell that a text of a table makes. A blank text makes none. -/
def entered (text : Option String) : Option Cell :=
  text.bind fun text => if (Text.trim text.toList).isEmpty then none else some (Cell.ofTyped text)

theorem entered_of_blank {text : String} (h : (Text.trim text.toList).isEmpty = true) :
    entered (some text) = none := if_pos h

theorem entered_of_not_blank {text : String} (h : (Text.trim text.toList).isEmpty = false) :
    entered (some text) = some (Cell.ofTyped text) := if_neg (by simp [h])

theorem toNat_toUInt32 {n : Nat} (h : n < UInt32.size) : n.toUInt32.toNat = n :=
  UInt32.toNat_ofNat_of_lt' h

/-- The text for an address, of a row of texts from a column on. -/
def rowText (row : UInt32) (col : Nat) (texts : List String) (a : Address) : Option String :=
  if a.row = row ∧ col ≤ a.col.toNat then texts[a.col.toNat - col]? else none

theorem rowText_cons (row : UInt32) {col : Nat} (hcol : col < UInt32.size) (text : String) (texts : List String)
    (a : Address) :
    rowText row col (text :: texts) a =
      if ⟨row, col.toUInt32⟩ = a then some text else rowText row (col + 1) texts a := by
  obtain ⟨r, c⟩ := a
  have hiff : (⟨row, col.toUInt32⟩ : Address) = ⟨r, c⟩ ↔ r = row ∧ c.toNat = col := by
    rw [Address.mk.injEq, ← UInt32.toNat_inj (b := c), toNat_toUInt32 hcol, eq_comm, eq_comm (a := col)]
  simp only [rowText, hiff]
  by_cases hrow : r = row
  · rcases Nat.lt_trichotomy c.toNat col with hlt | heq | hlt
    · rw [if_neg (by omega), if_neg (by omega), if_neg (by omega)]
    · rw [if_pos ⟨hrow, heq.ge⟩, if_pos ⟨hrow, heq⟩, heq, Nat.sub_self]
      rfl
    · rw [if_pos ⟨hrow, hlt.le⟩, if_neg (by omega), if_pos ⟨hrow, hlt⟩]
      rw [show c.toNat - col = c.toNat - (col + 1) + 1 by omega, List.getElem?_cons_succ]
  · simp [hrow]

theorem rowText_before (row : UInt32) {col : Nat} (hcol : col < UInt32.size) (texts : List String) :
    rowText row (col + 1) texts ⟨row, col.toUInt32⟩ = none := by
  rw [rowText, toNat_toUInt32 hcol, if_neg (by omega)]

theorem writeRow_eq {row : UInt32} (col : Nat) {texts : List String} (hrow : row < s.rows)
    (hcols : col + texts.length ≤ s.cols.toNat) :
    ∃ t, s.writeRow row col texts = .ok t ∧ t.rows = s.rows ∧ t.cols = s.cols ∧
      ∀ a, t.cells[a]? = (entered (rowText row col texts a)).or s.cells[a]? := by
  induction texts generalizing s col with
  | nil =>
    refine ⟨s, rfl, rfl, rfl, fun a => ?_⟩
    rw [rowText, List.getElem?_nil, ite_self]
    rfl
  | cons text texts ih =>
    rw [List.length_cons] at hcols
    have hcol : col < UInt32.size := Nat.lt_of_lt_of_le (by omega) s.cols.toNat_lt.le
    have hin : s.inBounds ⟨row, col.toUInt32⟩ = true := by
      rw [inBounds_iff, UInt32.lt_iff_toNat_lt (b := s.cols), toNat_toUInt32 hcol]
      exact ⟨hrow, by omega⟩
    unfold writeRow
    cases hblank : (Text.trim text.toList).isEmpty with
    | true =>
      obtain ⟨t, ht, hrows, hcols, hcells⟩ := ih (col + 1) hrow (by omega)
      refine ⟨t, ht, hrows, hcols, fun a => ?_⟩
      rw [hcells, rowText_cons row hcol]
      split
      · rename_i ha
        subst ha
        rw [rowText_before row hcol, entered_of_blank hblank]
        rfl
      · rfl
    | false =>
      obtain ⟨t, ht, hrows, hcols, hcells⟩ :=
        ih (s := s.typed ⟨row, col.toUInt32⟩ text) (col + 1) hrow (by show _ ≤ s.cols.toNat; omega)
      rw [setInput_of_inBounds hin]
      refine ⟨t, ht, hrows, hcols, fun a => ?_⟩
      rw [hcells, rowText_cons row hcol, getElem?_typed]
      split
      · rename_i ha
        subst ha
        rw [rowText_before row hcol, entered_of_not_blank hblank]
        rfl
      · rfl

/-- The text for an address, of rows of texts from a row on. -/
def tableText (row : Nat) (table : List (List String)) (a : Address) : Option String :=
  if row ≤ a.row.toNat then table[a.row.toNat - row]?.bind (·[a.col.toNat]?) else none

theorem tableText_cons {row : Nat} (hrow : row < UInt32.size) (texts : List String) (rest : List (List String))
    (a : Address) :
    tableText row (texts :: rest) a =
      if a.row = row.toUInt32 then rowText row.toUInt32 0 texts a else tableText (row + 1) rest a := by
  have hiff : a.row = row.toUInt32 ↔ a.row.toNat = row := by
    rw [← UInt32.toNat_inj, toNat_toUInt32 hrow]
  unfold tableText
  rcases Nat.lt_trichotomy a.row.toNat row with hlt | heq | hlt
  · rw [if_neg (by omega), if_neg (mt hiff.1 hlt.ne), if_neg (by omega)]
  · rw [if_pos heq.ge, if_pos (hiff.2 heq), rowText, if_pos ⟨hiff.2 heq, Nat.zero_le _⟩, heq, Nat.sub_self]
    rfl
  · rw [if_pos hlt.le, if_neg (mt hiff.1 hlt.ne'), if_pos (Nat.succ_le_of_lt hlt),
      show a.row.toNat - row = a.row.toNat - (row + 1) + 1 by omega, List.getElem?_cons_succ]

theorem writeRows_eq (row : Nat) {table : List (List String)} (hrows : row + table.length ≤ s.rows.toNat)
    (hcols : ∀ texts ∈ table, texts.length ≤ s.cols.toNat) :
    ∃ t, s.writeRows row table = .ok t ∧ ∀ a, t.cells[a]? = (entered (tableText row table a)).or s.cells[a]? := by
  induction table generalizing s row with
  | nil =>
    refine ⟨s, rfl, fun a => ?_⟩
    rw [tableText, List.getElem?_nil, Option.bind_none, ite_self]
    rfl
  | cons texts rest ih =>
    rw [List.length_cons] at hrows
    have hrow : row < UInt32.size := Nat.lt_of_lt_of_le (by omega) s.rows.toNat_lt.le
    have hlt : row.toUInt32 < s.rows := by
      rw [UInt32.lt_iff_toNat_lt, toNat_toUInt32 hrow]
      omega
    obtain ⟨u, hu, hurows, hucols, hucells⟩ := writeRow_eq 0 hlt
      (show 0 + texts.length ≤ s.cols.toNat by rw [Nat.zero_add]; exact hcols texts List.mem_cons_self)
    obtain ⟨t, ht, hcells⟩ := ih (s := u) (row + 1) (by rw [hurows]; omega)
      (by rw [hucols]; exact fun texts h => hcols texts (List.mem_cons_of_mem _ h))
    unfold writeRows
    rw [hu]
    refine ⟨t, ht, fun a => ?_⟩
    rw [hcells, hucells, tableText_cons hrow]
    split
    · -- the rows below do not write into this one
      rename_i ha
      have hnone : tableText (row + 1) rest a = none := by
        rw [tableText, ha, toNat_toUInt32 hrow, if_neg (by omega)]
      rw [hnone]
      rfl
    · rename_i ha
      have hnone : rowText row.toUInt32 0 texts a = none := by
        rw [rowText, if_neg fun h => ha h.1]
      rw [hnone]
      rfl

/-- The text that a table has for an address. -/
def textAt (table : List (List String)) (a : Address) : Option String :=
  table[a.row.toNat]?.bind (·[a.col.toNat]?)

theorem foldl_max_lt (l : List Nat) (n : Nat) : l.foldl max 0 < n ↔ 0 < n ∧ ∀ x ∈ l, x < n :=
  Range.foldl_lt_iff (g := id) (fun _ _ => rfl) l 0 n

/-- Whether the rows and the columns of a table can be numbered. -/
def Numbered (table : List (List String)) : Prop :=
  table.length < UInt32.size ∧ ∀ texts ∈ table, texts.length < UInt32.size

/-- A sheet is made from every such table, with the cells of its texts. -/
theorem ofTable_of_numbered {table : List (List String)} (h : Numbered table) :
    ∃ s, ofTable table = .ok s ∧ ∀ a, s.cells[a]? = entered (textAt table a) := by
  obtain ⟨hheight, hwidths⟩ := h
  have hwidth : (table.map List.length).foldl max 0 < UInt32.size :=
    (foldl_max_lt _ _).2 ⟨by decide, by simpa using hwidths⟩
  have hle : ∀ texts ∈ table, texts.length ≤ (table.map List.length).foldl max 0 := by
    have hmax := ((foldl_max_lt _ _).1 (Nat.lt_succ_self ((table.map List.length).foldl max 0))).2
    simpa [Nat.lt_succ_iff] using hmax
  unfold ofTable
  dsimp only
  generalize (table.map List.length).foldl max 0 = width at hwidth hle
  rw [if_neg (not_le.2 hheight), if_neg (not_le.2 hwidth)]
  obtain ⟨s, hs, hcells⟩ := writeRows_eq
    (s := ofBounds (max table.length.toUInt32 defaultRows) (max width.toUInt32 defaultCols)) 0
    (by
      show 0 + table.length ≤ (max table.length.toUInt32 defaultRows).toNat
      rw [Range.toNat_max, toNat_toUInt32 hheight]
      omega)
    (by
      intro texts htexts
      have := hle texts htexts
      show texts.length ≤ (max width.toUInt32 defaultCols).toNat
      rw [Range.toNat_max, toNat_toUInt32 hwidth]
      omega)
  refine ⟨s, hs, fun a => ?_⟩
  have hnone : (ofBounds (max table.length.toUInt32 defaultRows) (max width.toUInt32 defaultCols)).cells[a]? = none :=
    Std.ExtTreeMap.getElem?_empty
  rw [hcells, hnone, Option.or_none, tableText, if_pos (Nat.zero_le _)]
  rfl

theorem numbered_of_ofTable {table : List (List String)} (h : ofTable table = .ok s) : Numbered table := by
  unfold ofTable at h
  dsimp only at h
  split at h
  · cases h
  · rename_i hheight
    split at h
    · cases h
    · rename_i hwidth
      refine ⟨not_le.1 hheight, ?_⟩
      simpa using ((foldl_max_lt _ _).1 (not_le.1 hwidth)).2

theorem getElem?_cells_ofTable {table : List (List String)} (h : ofTable table = .ok s) (a : Address) :
    s.cells[a]? = entered (textAt table a) := by
  obtain ⟨s', hs', hcells⟩ := ofTable_of_numbered (numbered_of_ofTable h)
  cases h.symm.trans hs'
  exact hcells a

/-! ## The cells in use -/

/-- Whether every cell holds what a text that is not blank makes. -/
def Typed (s : Sheet) : Prop :=
  ∀ (a : Address) (c : Cell), s.cells[a]? = some c →
    ∃ text : String, Text.trim text.toList ≠ [] ∧ c = Cell.ofTyped text

theorem typed_of_ofTable {table : List (List String)} (h : ofTable table = .ok s) : s.Typed := by
  intro a c hc
  rw [getElem?_cells_ofTable h] at hc
  obtain ⟨text, -, hc⟩ := Option.bind_eq_some_iff.1 hc
  split at hc
  · cases hc
  · rename_i hblank
    cases hc
    exact ⟨text, fun hnil => hblank (List.isEmpty_iff.2 hnil), rfl⟩

theorem Typed.used_eq (h : s.Typed) : s.used = s.cells.keys := by
  rw [used, List.filter_eq_self.2, Std.ExtTreeMap.map_fst_toList_eq_keys]
  rintro ⟨a, c⟩ hmem
  obtain ⟨text, hblank, rfl⟩ := h a c (Std.ExtTreeMap.mem_toList_iff_getElem?_eq_some.1 hmem)
  simp [Cell.isEmpty_ofTyped hblank]

theorem Typed.mem_used (h : s.Typed) : a ∈ s.used ↔ ∃ c, s.cells[a]? = some c := by
  rw [h.used_eq, Std.ExtTreeMap.mem_keys, Std.ExtTreeMap.mem_iff_isSome_getElem?, Option.isSome_iff_exists]

section

variable (line : Address → UInt32)
  (hline : ∀ (r : Range) a, line (r.extend a).bottomRight = max (line r.bottomRight) (line a))

include hline

theorem line_usedRange_lt {range : Range} (h : s.usedRange? = some range) {n : Nat} :
    (line range.bottomRight).toNat < n ↔ ∀ a ∈ s.used, (line a).toNat < n := by
  unfold usedRange? at h
  split at h
  · cases h
  · rename_i a as hused
    cases h
    have hfold := Range.foldl_lt_iff (f := Range.extend) (g := fun r => (line r.bottomRight).toNat)
      (fun r a => by rw [hline, Range.toNat_max]) as (Range.single a) n
    rw [hused, List.forall_mem_cons]
    exact hfold

end

theorem le_usedRange {range : Range} (h : s.usedRange? = some range) (ha : a ∈ s.used) :
    a.row ≤ range.bottomRight.row ∧ a.col ≤ range.bottomRight.col := by
  have hrow := (line_usedRange_lt Address.row (fun _ _ => rfl) h).1 (Nat.lt_succ_self _) a ha
  have hcol := (line_usedRange_lt Address.col (fun _ _ => rfl) h).1 (Nat.lt_succ_self _) a ha
  exact ⟨UInt32.le_iff_toNat_le.2 (Nat.le_of_lt_succ hrow), UInt32.le_iff_toNat_le.2 (Nat.le_of_lt_succ hcol)⟩

/-! ## Reading tables -/

theorem length_interval_zero (last : UInt32) : (interval 0 last).length = last.toNat + 1 := by
  simp [interval]

theorem getElem?_interval_zero (last : UInt32) (n : UInt32) :
    (interval 0 last)[n.toNat]? = if n ≤ last then some n else none := by
  split
  · rename_i hle
    have hlt : n.toNat < last.toNat + 1 := Nat.lt_succ_of_le (UInt32.le_iff_toNat_le.1 hle)
    simp [interval, hlt]
  · rename_i hlt
    rw [List.getElem?_eq_none_iff, length_interval_zero]
    exact UInt32.lt_iff_toNat_lt.1 (UInt32.not_le.1 hlt)

theorem textAt_toTable {range : Range} (h : s.usedRange? = some range) (a : Address) :
    textAt s.toTable a =
      if a.row ≤ range.bottomRight.row ∧ a.col ≤ range.bottomRight.col then some (s.cellAt a).display else none := by
  unfold textAt toTable
  rw [h]
  dsimp only
  rw [List.getElem?_map, getElem?_interval_zero]
  by_cases hrow : a.row ≤ range.bottomRight.row
  · by_cases hcol : a.col ≤ range.bottomRight.col
    · rw [if_pos hrow, if_pos ⟨hrow, hcol⟩, Option.map_some, Option.bind_some, List.getElem?_map,
        getElem?_interval_zero, if_pos hcol]
      rfl
    · rw [if_pos hrow, if_neg fun h => hcol h.2, Option.map_some, Option.bind_some, List.getElem?_map,
        getElem?_interval_zero, if_neg hcol]
      rfl
  · rw [if_neg hrow, if_neg fun h => hrow h.1]
    rfl

/-- The cells that the table of a sheet makes are those of the sheet, with their
display texts typed. -/
theorem Typed.entered_toTable (h : s.Typed) (a : Address) :
    entered (textAt s.toTable a) = s.cells[a]?.map fun c => Cell.ofTyped c.display := by
  have hblank : entered (some "") = none := entered_of_blank rfl
  cases hcell : s.cells[a]? with
  | none =>
    have hdisplay : (s.cellAt a).display = "" := by
      rw [cellAt, hcell]
      rfl
    cases hrange : s.usedRange? with
    | none =>
      unfold toTable
      rw [hrange]
      rfl
    | some range =>
      rw [textAt_toTable hrange, hdisplay]
      split
      · exact hblank
      · rfl
  | some c =>
    have hused := h.mem_used.2 ⟨c, hcell⟩
    obtain ⟨text, htext, rfl⟩ := h a c hcell
    cases hrange : s.usedRange? with
    | none =>
      unfold usedRange? at hrange
      split at hrange
      · rename_i hnil
        rw [hnil] at hused
        cases hused
      · cases hrange
    | some range =>
      have hdisplay : (s.cellAt a).display = (Cell.ofTyped text).display := by
        rw [cellAt, hcell]
        rfl
      rw [textAt_toTable hrange, if_pos (le_usedRange hrange hused), hdisplay]
      exact entered_of_not_blank (by simpa using (Cell.display_ofTyped_display htext).1)

theorem lt_of_textAt {table : List (List String)} {text : String} (h : textAt table a = some text) :
    a.row.toNat < table.length ∧ ∃ texts ∈ table, a.col.toNat < texts.length := by
  obtain ⟨texts, htexts, htext⟩ := Option.bind_eq_some_iff.1 h
  exact ⟨(List.getElem?_eq_some_iff.1 htexts).1, texts, List.mem_of_getElem? htexts,
    (List.getElem?_eq_some_iff.1 htext).1⟩

theorem numbered_toTable {table : List (List String)} (h : ofTable table = .ok s) : Numbered s.toTable := by
  obtain ⟨hheight, hwidths⟩ := numbered_of_ofTable h
  -- a cell stands at the place of a text, so none is on the last line of all
  have hlines : ∀ a ∈ s.used, a.row.toNat < UInt32.size - 1 ∧ a.col.toNat < UInt32.size - 1 := by
    intro a ha
    obtain ⟨c, hc⟩ := (typed_of_ofTable h).mem_used.1 ha
    rw [getElem?_cells_ofTable h] at hc
    obtain ⟨text, htext, -⟩ := Option.bind_eq_some_iff.1 hc
    obtain ⟨hrow, texts, htexts, hcol⟩ := lt_of_textAt htext
    have hwidth := hwidths texts htexts
    omega
  cases hrange : s.usedRange? with
  | none =>
    have hnil : s.toTable = [] := by
      unfold toTable
      rw [hrange]
    rw [hnil]
    exact ⟨by decide, nofun⟩
  | some range =>
    have hrow := (line_usedRange_lt Address.row (fun _ _ => rfl) hrange).2 fun a ha => (hlines a ha).1
    have hcol := (line_usedRange_lt Address.col (fun _ _ => rfl) hrange).2 fun a ha => (hlines a ha).2
    unfold toTable
    rw [hrange]
    constructor
    · rw [List.length_map, length_interval_zero]
      omega
    · intro texts htexts
      obtain ⟨row, -, rfl⟩ := List.mem_map.1 htexts
      rw [List.length_map, length_interval_zero]
      omega

/-! ## Normal forms -/

/-- A sheet has the same table as the one that its display texts make. -/
theorem Typed.toTable_congr (hs : s.Typed)
    (ht : ∀ a : Address, t.cells[a]? = s.cells[a]?.map fun c => Cell.ofTyped c.display) :
    t.toTable = s.toTable := by
  have htyped : t.Typed := by
    intro a c hc
    rw [ht] at hc
    obtain ⟨c, hstored, rfl⟩ := Option.map_eq_some_iff.1 hc
    obtain ⟨text, htext, rfl⟩ := hs a c hstored
    exact ⟨_, (Cell.display_ofTyped_display htext).1, rfl⟩
  have hcells : t.cells = s.cells.map fun _ c => Cell.ofTyped c.display :=
    Std.ExtTreeMap.ext_getElem? fun a => by rw [ht, Std.ExtTreeMap.getElem?_map]
  have hused : t.usedRange? = s.usedRange? := by
    unfold usedRange?
    rw [htyped.used_eq, hs.used_eq, hcells, Std.ExtTreeMap.keys_map]
  have hdisplay : ∀ a, (t.cellAt a).display = (s.cellAt a).display := by
    intro a
    rw [cellAt, ht, cellAt]
    cases hc : s.cells[a]? with
    | none => rfl
    | some c =>
      obtain ⟨text, htext, rfl⟩ := hs a c hc
      exact (Cell.display_ofTyped_display htext).2
  simp only [toTable, hused, hdisplay]

/-- Which tables a sheet is made from; and that the table of this sheet is a
normal form. -/
theorem toTable_ofTable (table : List (List String)) :
    ((∃ s, ofTable table = .ok s) ↔
      table.length < UInt32.size ∧ ∀ texts ∈ table, texts.length < UInt32.size) ∧
    ∀ s, ofTable table = .ok s → ∃ t, ofTable s.toTable = .ok t ∧ t.toTable = s.toTable := by
  refine ⟨⟨fun ⟨s, hs⟩ => numbered_of_ofTable hs, fun h => ?_⟩, fun s hs => ?_⟩
  · obtain ⟨s, hs, -⟩ := ofTable_of_numbered h
    exact ⟨s, hs⟩
  · have htyped := typed_of_ofTable hs
    obtain ⟨t, ht, hcells⟩ := ofTable_of_numbered (numbered_toTable hs)
    exact ⟨t, ht, htyped.toTable_congr fun a => (hcells a).trans (htyped.entered_toTable a)⟩

/-- A ragged table with texts of every kind, and with blank ones. -/
def ragged : List (List String) :=
  [["sum( a1 )", " =sum(b3) ", "true"], [], ["-0", "+12026-1-5", " ", "1e21", "2.50"], ["", "\t"]]

theorem toTable_ofTable_ragged :
    ∃ s, ofTable ragged = .ok s ∧
      s.toTable = [["sum( a1 )", "=sum(b3)", "TRUE", "", ""], ["", "", "", "", ""],
        ["0", "+12026-01-05", "", "1000000000000000000000", "2.5"]] ∧
      ∃ t, ofTable s.toTable = .ok t ∧ t.toTable = s.toTable := by
  have hshown : (ofTable ragged).toOption.map toTable =
      some [["sum( a1 )", "=sum(b3)", "TRUE", "", ""], ["", "", "", "", ""],
        ["0", "+12026-01-05", "", "1000000000000000000000", "2.5"]] := by
    decide +kernel
  obtain ⟨hmade, hnormal⟩ := toTable_ofTable ragged
  obtain ⟨s, hs⟩ := hmade.2 (by decide)
  rw [hs] at hshown
  exact ⟨s, hs, Option.some.inj hshown, hnormal s hs⟩

end Spreadsheet.Sheet

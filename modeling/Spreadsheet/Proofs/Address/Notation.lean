import Mathlib.Data.List.Induction
import Mathlib.Data.List.TakeWhile
import Mathlib.Data.Nat.Digits.Defs
import Spreadsheet.Address
import Spreadsheet.Proofs.Text

/-
  Which texts name a cell, and which cell that is.

  A text is read as an address exactly if it is letters that denote a column
  and then digits that denote a row, both counted from one (`ofName_eq_ok`). The
  reader stops early at letters and digits that pass the greatest number; what
  it has read by then only grows, so no text is refused that denotes one in
  range. The case of the letters does not matter (`ofName_of_map_toUpper`). Among
  the names of a cell the one written for it has capitals and no leading zeros:
  written after reading, a text comes out in this form (`lettersOf_value`,
  `digits_natOfDigits`).
-/

namespace Spreadsheet

/-! ## Decimal numerals -/

namespace Text

theorem digitChar_digitValue {c : Char} (h : isDigit c = true) : digitChar (digitValue c) = c := by
  have hzero : '0'.toNat = 48 := rfl
  rw [isDigit_iff] at h
  rw [digitChar, digitValue, hzero, Nat.add_sub_cancel' h.1, Char.ofNat_toNat]

theorem digitValue_lt {c : Char} (h : isDigit c = true) : digitValue c < 10 := by
  have hzero : '0'.toNat = 48 := rfl
  rw [isDigit_iff] at h
  rw [digitValue, hzero]
  omega

theorem natOfDigits_eq_ofDigits (ds : List Char) :
    natOfDigits ds = Nat.ofDigits 10 (ds.reverse.map digitValue) := by
  induction ds using List.reverseRecOn with
  | nil => rfl
  | append_singleton ds c ih =>
    rw [natOfDigits_append_singleton, ih, List.reverse_append, List.reverse_singleton,
      List.singleton_append, List.map_cons, Nat.ofDigits_cons]
    omega

theorem eq_zero_of_natOfDigits {ds : List Char} (hds : ∀ c ∈ ds, isDigit c = true)
    (h : natOfDigits ds = 0) : ∀ c ∈ ds, c = '0' := by
  induction ds using List.reverseRecOn with
  | nil => simp
  | append_singleton ds d ih =>
    rw [natOfDigits_append_singleton] at h
    have hd := digitChar_digitValue (hds d (by simp))
    rw [show digitValue d = 0 by omega] at hd
    intro c hc
    rcases List.mem_append.1 hc with hc | hc
    · exact ih (fun e he => hds e (List.mem_append_left [d] he)) (by omega) c hc
    · rw [List.mem_singleton.1 hc, ← hd]
      rfl

/-- The number that digits denote is written as the digits without their leading
zeros. -/
theorem digits_natOfDigits {ds : List Char} (hds : ∀ c ∈ ds, isDigit c = true)
    (hpos : 0 < natOfDigits ds) : digits (natOfDigits ds) = ds.dropWhile (· == '0') := by
  induction ds using List.reverseRecOn with
  | nil => cases hpos
  | append_singleton ds c ih =>
    have hinit : ∀ d ∈ ds, isDigit d = true := fun d hd => hds d (List.mem_append_left [c] hd)
    have hc : isDigit c = true := hds c (by simp)
    have hlt := digitValue_lt hc
    rw [natOfDigits_append_singleton] at hpos ⊢
    rw [List.dropWhile_append]
    rcases Nat.eq_zero_or_pos (natOfDigits ds) with hzero | hmore
    · -- nothing but zeros before the last digit, which is none
      have hnil : ds.dropWhile (· == '0') = [] := by
        rw [List.dropWhile_eq_nil_iff]
        exact fun d hd => beq_iff_eq.2 (eq_zero_of_natOfDigits hinit hzero d hd)
      have hne : c ≠ '0' := by
        rintro rfl
        rw [hzero] at hpos
        exact absurd hpos (by decide)
      rw [hzero, Nat.zero_mul, Nat.zero_add, digits, if_pos hlt, digitChar_digitValue hc, hnil]
      simp [hne]
    · have hge : ¬ natOfDigits ds * 10 + digitValue c < 10 := by omega
      have hne : (ds.dropWhile (· == '0')).isEmpty = false := by
        rw [← ih hinit hmore, List.isEmpty_eq_false_iff]
        exact digits_ne_nil _
      rw [digits, if_neg hge, show (natOfDigits ds * 10 + digitValue c) / 10 = natOfDigits ds by omega,
        show (natOfDigits ds * 10 + digitValue c) % 10 = digitValue c by omega, ih hinit hmore,
        digitChar_digitValue hc, hne]
      rfl

end Text

/-! ## Column letters -/

namespace Column

open Text (isLetter)

theorem isCapital_letterChar {n : Nat} (h : n < 26) : Text.isCapital (letterChar n) = true := by
  have : ∀ m < 26, Text.isCapital (letterChar m) = true := by decide
  exact this n h

theorem letterValue_letterChar {n : Nat} (h : n < 26) : letterValue (letterChar n) = n + 1 := by
  have : ∀ m < 26, letterValue (letterChar m) = m + 1 := by decide
  exact this n h

theorem letterValue_spec {c : Char} (h : isLetter c = true) :
    ∃ n < 26, letterValue c = n + 1 ∧ letterChar n = c.toUpper := by
  have hall : ∀ m < 128, isLetter (Char.ofNat m) = true → ∃ n < 26,
      letterValue (Char.ofNat m) = n + 1 ∧ letterChar n = (Char.ofNat m).toUpper := by decide
  have hlt : c.toNat < 128 := by
    rw [Text.isLetter_iff] at h
    omega
  have hc := hall c.toNat hlt
  rw [Char.ofNat_toNat] at hc
  exact hc h

theorem lettersOf_ne_nil (n : Nat) : lettersOf n ≠ [] := by
  unfold lettersOf; split <;> simp

theorem isCapital_of_mem_lettersOf {n : Nat} {c : Char} (h : c ∈ lettersOf n) :
    Text.isCapital c = true := by
  fun_induction lettersOf n with
  | case1 n hn => simp only [List.mem_singleton] at h; exact h ▸ isCapital_letterChar hn
  | case2 n hn ih =>
    rcases List.mem_append.1 h with h | h
    · exact ih h
    · simp only [List.mem_singleton] at h
      exact h ▸ isCapital_letterChar (Nat.mod_lt n (by decide))

theorem isLetter_of_mem_lettersOf {n : Nat} {c : Char} (h : c ∈ lettersOf n) : isLetter c = true :=
  Text.isLetter_of_isCapital (isCapital_of_mem_lettersOf h)

theorem value_append_singleton (cs : List Char) (c : Char) :
    value (cs ++ [c]) = value cs * 26 + letterValue c := by
  simp [value]

theorem value_map_toUpper (cs : List Char) : value (cs.map Char.toUpper) = value cs := by
  simp only [value, List.foldl_map, letterValue, Text.toUpper_toUpper]

/-- Letters denote the sum of their values, each by the weight of its place. -/
theorem value_eq_ofDigits (cs : List Char) :
    value cs = Nat.ofDigits 26 (cs.reverse.map letterValue) := by
  induction cs using List.reverseRecOn with
  | nil => rfl
  | append_singleton cs c ih =>
    rw [value_append_singleton, ih, List.reverse_append, List.reverse_singleton,
      List.singleton_append, List.map_cons, Nat.ofDigits_cons]
    omega

theorem value_lettersOf (n : Nat) : value (lettersOf n) = n + 1 := by
  fun_induction lettersOf n with
  | case1 n h => simp [value, letterValue_letterChar h]
  | case2 n h ih =>
    rw [value_append_singleton, ih, letterValue_letterChar (Nat.mod_lt n (by decide))]
    omega

theorem value_pos {cs : List Char} (h : cs ≠ []) : 0 < value cs := by
  rcases List.eq_nil_or_concat cs with rfl | ⟨init, c, rfl⟩
  · exact absurd rfl h
  · rw [List.concat_eq_append, value_append_singleton, letterValue]
    omega

/-- The number that letters denote is written as the letters in capitals. There
is no digit zero, so no other capitals denote it. -/
theorem lettersOf_value {cs : List Char} (hcs : ∀ c ∈ cs, isLetter c = true) {n : Nat}
    (h : value cs = n + 1) : lettersOf n = cs.map Char.toUpper := by
  induction cs using List.reverseRecOn generalizing n with
  | nil => cases h
  | append_singleton cs c ih =>
    obtain ⟨d, hd, hvalue, hletter⟩ := letterValue_spec (hcs c (by simp))
    have hinit : ∀ e ∈ cs, isLetter e = true := fun e he => hcs e (List.mem_append_left [c] he)
    rw [value_append_singleton, hvalue] at h
    rw [List.map_append, List.map_singleton, ← hletter]
    cases cs with
    | nil =>
      have hn : n = d := by
        rw [value, List.foldl_nil] at h
        omega
      rw [hn, lettersOf, if_pos hd, List.map_nil, List.nil_append]
    | cons e es =>
      obtain ⟨m, hm⟩ := Nat.exists_eq_add_one.2 (value_pos (List.cons_ne_nil e es))
      rw [hm] at h
      rw [lettersOf, if_neg (by omega), show n / 26 - 1 = m by omega, show n % 26 = d by omega,
        ih hinit hm]

theorem le_foldl_value (n : Nat) (cs : List Char) :
    n ≤ cs.foldl (fun n c => n * 26 + letterValue c) n := by
  induction cs generalizing n with
  | nil => exact Nat.le_refl n
  | cons c cs ih => exact Nat.le_trans (by omega) (ih (n * 26 + letterValue c))

/-- Reading succeeds on letters that do not pass the bound, with the number they
denote. The bound may be checked after each of them, for the number read so far
does not get smaller. -/
theorem readLetters_eq_ok {word cs : List Char} {n m : Nat} (hn : n ≤ bound) :
    readLetters word n cs = .ok m ↔ (∀ c ∈ cs, isLetter c = true) ∧
      cs.foldl (fun n c => n * 26 + letterValue c) n = m ∧ m ≤ bound := by
  induction cs generalizing n with
  | nil =>
    simp only [readLetters, Except.ok.injEq, List.not_mem_nil, false_implies, implies_true, true_and,
      List.foldl_nil]
    exact ⟨fun h => ⟨h, h ▸ hn⟩, fun h => h.1⟩
  | cons c cs ih =>
    rw [readLetters, List.forall_mem_cons, List.foldl_cons]
    by_cases hc : isLetter c = true
    · rw [if_pos hc]
      by_cases hbound : n * 26 + letterValue c > bound
      · have hgrows := le_foldl_value (n * 26 + letterValue c) cs
        rw [if_pos hbound]
        constructor
        · intro h
          cases h
        · rintro ⟨-, hm, hle⟩
          omega
      · rw [if_neg hbound, ih (Nat.not_lt.1 hbound)]
        simp only [hc, true_and]
    · rw [if_neg hc]
      constructor
      · intro h
        cases h
      · rintro ⟨⟨h, -⟩, -⟩
        exact absurd h hc

theorem ofLetters_eq_ok {cs : List Char} {col : UInt32} :
    ofLetters cs = .ok col ↔
      cs ≠ [] ∧ (∀ c ∈ cs, isLetter c = true) ∧ value cs = col.toNat + 1 := by
  have hcol := col.toNat_lt
  unfold ofLetters
  by_cases hnil : cs = []
  · simp [hnil]
  · have hpos := value_pos hnil
    rw [if_neg (by simpa using hnil)]
    constructor
    · intro h
      obtain ⟨n, hread, hn⟩ : ∃ n, readLetters cs 0 cs = .ok n ∧ (n - 1).toUInt32 = col := by
        cases hread : readLetters cs 0 cs with
        | error e =>
          rw [hread] at h
          cases h
        | ok n =>
          rw [hread] at h
          exact ⟨n, rfl, Except.ok.inj h⟩
      obtain ⟨hletters, hvalue, hle⟩ := (readLetters_eq_ok (Nat.zero_le bound)).1 hread
      rw [show value cs = n from hvalue] at hpos ⊢
      refine ⟨hnil, hletters, ?_⟩
      rw [← hn]
      simp only [bound, UInt32.size] at hle
      simp only [Nat.toUInt32, UInt32.toNat_ofNat']
      omega
    · rintro ⟨-, hletters, hvalue⟩
      have hread : readLetters cs 0 cs = .ok (col.toNat + 1) :=
        (readLetters_eq_ok (Nat.zero_le bound)).2
          ⟨hletters, hvalue, by simp only [bound, UInt32.size]; omega⟩
      rw [hread]
      simp [Except.map]

end Column

/-! ## Names of cells -/

namespace Address

open Text (digits digitValue isDigit isLetter natOfDigits)

/-- Digits name the row whose number they denote, counted from one. Numerals past
64 bits are past the last row as well. -/
theorem readRow_eq_ok {text ds : List Char} {row : UInt32} :
    readRow text ds = .ok row ↔
      ds ≠ [] ∧ (∀ c ∈ ds, isDigit c = true) ∧ natOfDigits ds = row.toNat + 1 := by
  have hrow := row.toNat_lt
  simp only [readRow, Bool.or_eq_true, List.isEmpty_iff, Bool.not_eq_true', decide_eq_true_eq,
    ge_iff_le, gt_iff_lt, Column.bound, UInt32.size, UInt64.size]
  split
  · rename_i hbad
    constructor
    · intro h
      cases h
    · rintro ⟨hnil, hdigits, hvalue⟩
      rcases hbad with (hempty | hall) | hlarge
      · exact absurd hempty hnil
      · rw [List.all_eq_true.2 hdigits] at hall
        cases hall
      · omega
  · rename_i hgood
    simp only [not_or, Bool.not_eq_false] at hgood
    have hdigits := List.all_eq_true.1 hgood.1.2
    split
    · constructor
      · intro h
        cases h
      · rintro ⟨-, -, hvalue⟩
        omega
    · simp only [Except.ok.injEq, ← UInt32.toNat_inj, Nat.toUInt32, UInt32.toNat_ofNat']
      constructor
      · intro h
        exact ⟨hgood.1.1, hdigits, by omega⟩
      · rintro ⟨-, -, hvalue⟩
        omega

/-- Whether letters and digits denote the column and the row of an address, both
counted from one. -/
structure Denoted (ls ds : List Char) (a : Address) : Prop where
  letters_ne_nil : ls ≠ []
  isLetter : ∀ c ∈ ls, Text.isLetter c = true
  col : Column.value ls = a.col.toNat + 1
  digits_ne_nil : ds ≠ []
  isDigit : ∀ c ∈ ds, Text.isDigit c = true
  row : Text.natOfDigits ds = a.row.toNat + 1

theorem span_append {ls ds : List Char} (hls : ∀ c ∈ ls, isLetter c = true)
    (hds : ∀ c ∈ ds, isDigit c = true) :
    (ls ++ ds).takeWhile isLetter = ls ∧ (ls ++ ds).dropWhile isLetter = ds :=
  Text.split_append hls fun d hd => Text.isLetter_of_isDigit (hds d (List.mem_of_mem_head? hd))

/-- The texts that name a cell are letters and then digits that denote it. -/
theorem ofName_eq_ok {text : List Char} {a : Address} :
    ofName text = .ok a ↔ ∃ ls ds, text = ls ++ ds ∧ Denoted ls ds a := by
  constructor
  · intro h
    simp only [ofName] at h
    split at h
    · cases h
    · cases hrow : readRow text (text.dropWhile isLetter) with
      | error e =>
        rw [hrow] at h
        cases h
      | ok row =>
        cases hcol : Column.ofLetters (text.takeWhile isLetter) with
        | error e =>
          rw [hrow, hcol] at h
          cases h
        | ok col =>
          rw [hrow, hcol] at h
          cases h
          obtain ⟨hls, hletters, hvalue⟩ := Column.ofLetters_eq_ok.1 hcol
          obtain ⟨hds, hdigits, hnumber⟩ := readRow_eq_ok.1 hrow
          exact ⟨_, _, List.takeWhile_append_dropWhile.symm, hls, hletters, hvalue, hds, hdigits, hnumber⟩
  · rintro ⟨ls, ds, rfl, h⟩
    obtain ⟨htake, hdrop⟩ := span_append h.isLetter h.isDigit
    have hrow : readRow (ls ++ ds) ds = .ok a.row :=
      readRow_eq_ok.2 ⟨h.digits_ne_nil, h.isDigit, h.row⟩
    have hcol : Column.ofLetters ls = .ok a.col :=
      Column.ofLetters_eq_ok.2 ⟨h.letters_ne_nil, h.isLetter, h.col⟩
    have hne : ls.isEmpty = false := by simpa using h.letters_ne_nil
    simp only [ofName, htake, hdrop, hne, hrow, hcol]
    rfl

theorem isLetter_or_isDigit_of_ofName {text : List Char} {a : Address} (h : ofName text = .ok a) :
    ∀ c ∈ text, isLetter c = true ∨ isDigit c = true := by
  obtain ⟨ls, ds, rfl, hname⟩ := ofName_eq_ok.1 h
  exact List.forall_mem_append.2
    ⟨fun c hc => .inl (hname.isLetter c hc), fun c hc => .inr (hname.isDigit c hc)⟩

theorem ofName_of_map_toUpper {text : List Char} {a : Address} (h : ofName (text.map Char.toUpper) = .ok a) :
    ofName text = .ok a := by
  obtain ⟨ls, ds, htext, hname⟩ := ofName_eq_ok.1 h
  obtain ⟨ls, ds, rfl, rfl, rfl⟩ := List.map_eq_append_iff.1 htext
  have hds : ds.map Char.toUpper = ds := by
    rw [List.map_congr_left fun d hd => Text.toUpper_of_isDigit_toUpper (hname.isDigit _ (List.mem_map_of_mem hd)),
      List.map_id']
  rw [hds] at hname
  refine ofName_eq_ok.2 ⟨ls, ds, rfl, ?_, fun c hc => ?_, ?_, hname.digits_ne_nil, hname.isDigit, hname.row⟩
  · simpa using hname.letters_ne_nil
  · exact Text.isLetter_of_toUpper (hname.isLetter _ (List.mem_map_of_mem hc))
  · rw [← Column.value_map_toUpper, hname.col]

theorem denoted_name (a : Address) :
    Denoted (Column.letters a.col) (digits (a.row.toNat + 1)) a where
  letters_ne_nil := Column.lettersOf_ne_nil _
  isLetter _ hc := Column.isLetter_of_mem_lettersOf hc
  col := Column.value_lettersOf _
  digits_ne_nil := Text.digits_ne_nil _
  isDigit _ hc := Text.isDigit_of_mem_digits hc
  row := Text.natOfDigits_digits _

/-- Reading the name of a cell gives back its coordinates, whichever they are. -/
theorem coordinates_read_back (row col : UInt32) :
    Denoted (Column.letters col) (digits (row.toNat + 1)) ⟨row, col⟩ ∧
      ofName (label ⟨row, col⟩).toList = .ok ⟨row, col⟩ := by
  have hname := denoted_name ⟨row, col⟩
  refine ⟨hname, ?_⟩
  rw [label, String.toList_ofList, name]
  exact ofName_eq_ok.2 ⟨_, _, rfl, hname⟩

example : label ⟨4294967295, 4294967295⟩ = "MWLQKWV4294967296" := by decide +kernel

theorem Denoted.name_eq {ls ds : List Char} {a : Address} (h : Denoted ls ds a) :
    a.name = ls.map Char.toUpper ++ ds.dropWhile (· == '0') := by
  have hrow := h.row
  rw [name, Column.letters, Column.lettersOf_value h.isLetter h.col, ← hrow,
    Text.digits_natOfDigits h.isDigit (by omega)]

/-- Whether a text is spelled as the name of a cell: letters for the number of
the column, with the values one to twenty-six in base 26, and then digits for
the number of the row. The numbers count from one and are those of lines. -/
structure Spelled (text ls ds : List Char) (col row : Nat) : Prop where
  text_eq : text = ls ++ ds
  letters_ne_nil : ls ≠ []
  isLetter : ∀ c ∈ ls, Text.isLetter c = true
  col_eq : Nat.ofDigits 26 (ls.reverse.map Column.letterValue) = col
  col_mem : 1 ≤ col ∧ col ≤ 2 ^ 32
  digits_ne_nil : ds ≠ []
  isDigit : ∀ c ∈ ds, Text.isDigit c = true
  row_eq : Nat.ofDigits 10 (ds.reverse.map Text.digitValue) = row
  row_mem : 1 ≤ row ∧ row ≤ 2 ^ 32

theorem Denoted.spelled {ls ds : List Char} {a : Address} (h : Denoted ls ds a) :
    Spelled (ls ++ ds) ls ds (a.col.toNat + 1) (a.row.toNat + 1) where
  text_eq := rfl
  letters_ne_nil := h.letters_ne_nil
  isLetter := h.isLetter
  col_eq := by rw [← Column.value_eq_ofDigits, h.col]
  col_mem := ⟨Nat.le_add_left 1 _, a.col.toNat_lt⟩
  digits_ne_nil := h.digits_ne_nil
  isDigit := h.isDigit
  row_eq := by rw [← Text.natOfDigits_eq_ofDigits, h.row]
  row_mem := ⟨Nat.le_add_left 1 _, a.row.toNat_lt⟩

theorem toNat_toUInt32_pred {n : Nat} (h : 1 ≤ n ∧ n ≤ 2 ^ 32) : (n - 1).toUInt32.toNat + 1 = n := by
  rw [Nat.toUInt32, UInt32.toNat_ofNat', Nat.mod_eq_of_lt (by omega)]
  omega

theorem Spelled.denoted {text ls ds : List Char} {col row : Nat} (h : Spelled text ls ds col row) :
    Denoted ls ds ⟨(row - 1).toUInt32, (col - 1).toUInt32⟩ where
  letters_ne_nil := h.letters_ne_nil
  isLetter := h.isLetter
  col := by rw [Column.value_eq_ofDigits, h.col_eq, toNat_toUInt32_pred h.col_mem]
  digits_ne_nil := h.digits_ne_nil
  isDigit := h.isDigit
  row := by rw [Text.natOfDigits_eq_ofDigits, h.row_eq, toNat_toUInt32_pred h.row_mem]

/-- A text is read as an address exactly if it is spelled as the name of a cell,
and then with the coordinates it is spelled for. The name written for the
address is the text in capitals and without the leading zeros of the row. -/
theorem ofName_spelled (text : List Char) :
    ((∃ a, ofName text = .ok a) ↔ ∃ ls ds col row, Spelled text ls ds col row) ∧
      ∀ ls ds col row, Spelled text ls ds col row → ∃ a, ofName text = .ok a ∧
        a.col.toNat = col - 1 ∧ a.row.toNat = row - 1 ∧
        a.name = ls.map Char.toUpper ++ ds.dropWhile (· == '0') := by
  have hread : ∀ ls ds col row, Spelled text ls ds col row →
      ofName text = .ok ⟨(row - 1).toUInt32, (col - 1).toUInt32⟩ := fun ls ds col row h =>
    ofName_eq_ok.2 ⟨ls, ds, h.text_eq, h.denoted⟩
  refine ⟨⟨?_, ?_⟩, ?_⟩
  · rintro ⟨a, h⟩
    obtain ⟨ls, ds, rfl, hdenoted⟩ := ofName_eq_ok.1 h
    exact ⟨ls, ds, _, _, hdenoted.spelled⟩
  · rintro ⟨ls, ds, col, row, h⟩
    exact ⟨_, hread ls ds col row h⟩
  · intro ls ds col row h
    exact ⟨_, hread ls ds col row h, Nat.eq_sub_of_add_eq (toNat_toUInt32_pred h.col_mem),
      Nat.eq_sub_of_add_eq (toNat_toUInt32_pred h.row_mem), h.denoted.name_eq⟩

theorem ofName_spelled_last :
    Spelled "mwlqKWV004294967296".toList "mwlqKWV".toList "004294967296".toList 4294967296 4294967296 ∧
      ∃ a, ofName "mwlqKWV004294967296".toList = .ok a ∧ a.col.toNat = 4294967295 ∧
        a.row.toNat = 4294967295 ∧ a.name = "MWLQKWV4294967296".toList := by
  have hspelled : Spelled "mwlqKWV004294967296".toList "mwlqKWV".toList "004294967296".toList
      4294967296 4294967296 :=
    ⟨by decide, by decide, List.all_eq_true.1 (by decide), by decide, by decide, by decide,
      List.all_eq_true.1 (by decide), by decide, by decide⟩
  exact ⟨hspelled, (ofName_spelled _).2 _ _ _ _ hspelled⟩

end Address

end Spreadsheet

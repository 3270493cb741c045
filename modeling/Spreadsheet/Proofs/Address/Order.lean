import Mathlib.Data.Char
import Mathlib.Data.List.Shortlex
import Spreadsheet.Proofs.Address.Notation

/-
  The order of column names.

  Names of columns are in the order of the columns, if a shorter name comes
  before a longer one and names of one length are in alphabetical order. For
  words of capitals this is the order of the numbers they denote
  (`value_lt_value_iff`): the last letter counts less than one of the letter
  before it, and there is no letter for nothing. As every word of capitals
  denotes a number, none is left out between the names of two columns
  (`letters_in_order`).
-/

namespace Spreadsheet

/-! ## Words by length and alphabet -/

section

variable {α : Type} {r : α → α → Prop}

/-- Of two words as long, each with one more letter, the first different letters
decide. -/
theorem lex_append_singleton {u v : List α} (hlength : u.length = v.length) (a b : α) :
    List.Lex r (u ++ [a]) (v ++ [b]) ↔ List.Lex r u v ∨ u = v ∧ r a b := by
  induction u generalizing v with
  | nil =>
    obtain rfl : v = [] := List.eq_nil_of_length_eq_zero hlength.symm
    simp
  | cons c u ih =>
    obtain ⟨d, v, rfl⟩ := List.exists_cons_of_length_eq_add_one hlength.symm
    rw [List.cons_append, List.cons_append, List.cons_lex_cons_iff, List.cons_lex_cons_iff,
      ih (Nat.succ.inj hlength), List.cons.injEq]
    constructor
    · rintro (hcd | ⟨rfl, hlex | ⟨rfl, hab⟩⟩)
      · exact .inl (.inl hcd)
      · exact .inl (.inr ⟨rfl, hlex⟩)
      · exact .inr ⟨⟨rfl, rfl⟩, hab⟩
    · rintro ((hcd | ⟨rfl, hlex⟩) | ⟨⟨rfl, rfl⟩, hab⟩)
      · exact .inl hcd
      · exact .inr ⟨rfl, .inl hlex⟩
      · exact .inr ⟨rfl, .inr ⟨rfl, hab⟩⟩

/-- The order of two words is that of the words without their last letters, and
for the same words that of these letters. -/
theorem shortlex_append_singleton [Std.Irrefl r] (u v : List α) (a b : α) :
    List.Shortlex r (u ++ [a]) (v ++ [b]) ↔ List.Shortlex r u v ∨ u = v ∧ r a b := by
  rw [List.shortlex_def, List.shortlex_def, List.length_append, List.length_append, List.length_singleton,
    List.length_singleton]
  by_cases hlength : u.length = v.length
  · simp only [hlength, lt_self_iff_false, true_and, false_or]
    exact lex_append_singleton hlength a b
  · have hne : u ≠ v := fun h => hlength (congrArg List.length h)
    simp only [hlength, hne, add_lt_add_iff_right, add_left_inj, false_and, or_false]

end

namespace Column

open Text (isCapital)

/-! ## The numbers of words -/

theorem value_eq_zero_iff {cs : List Char} : value cs = 0 ↔ cs = [] := by
  constructor
  · intro h
    by_contra hne
    exact absurd h (Nat.ne_of_gt (value_pos hne))
  · rintro rfl
    rfl

theorem eq_lettersOf {word : List Char} (hword : ∀ c ∈ word, isCapital c = true) {n : Nat}
    (h : value word = n + 1) : word = lettersOf n := by
  have hupper : ∀ c ∈ word, c.toUpper = c := fun c hc =>
    Text.toUpper_of_toNat_le (Text.isCapital_iff.1 (hword c hc)).2
  rw [lettersOf_value (fun c hc => Text.isLetter_of_isCapital (hword c hc)) h, List.map_congr_left hupper,
    List.map_id']

theorem value_injective {u v : List Char} (hu : ∀ c ∈ u, isCapital c = true)
    (hv : ∀ c ∈ v, isCapital c = true) (h : value u = value v) : u = v := by
  cases hn : value u with
  | zero => rw [value_eq_zero_iff.1 hn, value_eq_zero_iff.1 (h.symm.trans hn)]
  | succ n => rw [eq_lettersOf hu hn, eq_lettersOf hv (h.symm.trans hn)]

theorem letterValue_of_isCapital {c : Char} (h : isCapital c = true) : letterValue c = c.toNat - 64 := by
  have hA : 'A'.toNat = 65 := rfl
  rw [Text.isCapital_iff] at h
  rw [letterValue, Text.toUpper_of_toNat_le h.2, hA]
  omega

/-- Words of capitals are in the order of the numbers they denote. -/
theorem value_lt_value_iff {u v : List Char} (hu : ∀ c ∈ u, isCapital c = true)
    (hv : ∀ c ∈ v, isCapital c = true) : value u < value v ↔ List.Shortlex (· < ·) u v := by
  -- on the words without their last letters, which count twenty-six times
  induction u using List.reverseRecOn generalizing v with
  | nil =>
    by_cases hnil : v = []
    · simp [hnil]
    · exact iff_of_true (value_pos hnil) (.of_length_lt (List.length_pos_of_ne_nil hnil))
  | append_singleton u c ih =>
    rcases List.eq_nil_or_concat' v with rfl | ⟨v, d, rfl⟩
    · simp [value]
    · obtain ⟨hu, hc⟩ := List.forall_mem_append.1 hu
      obtain ⟨hv, hd⟩ := List.forall_mem_append.1 hv
      have hc := List.forall_mem_singleton.1 hc
      have hd := List.forall_mem_singleton.1 hd
      have hsame : value u = value v ↔ u = v := ⟨value_injective hu hv, congrArg value⟩
      have hletter : c.toNat < d.toNat ↔ c < d := UInt32.lt_iff_toNat_lt.symm
      calc value (u ++ [c]) < value (v ++ [d])
          ↔ value u < value v ∨ value u = value v ∧ c.toNat < d.toNat := by
            rw [value_append_singleton, value_append_singleton, letterValue_of_isCapital hc,
              letterValue_of_isCapital hd]
            rw [Text.isCapital_iff] at hc hd
            omega
        _ ↔ List.Shortlex (· < ·) u v ∨ u = v ∧ c < d := by rw [ih hu hv, hsame, hletter]
        _ ↔ List.Shortlex (· < ·) (u ++ [c]) (v ++ [d]) := (shortlex_append_singleton u v c d).symm

/-! ## The names of columns -/

def last : UInt32 := 4294967295

theorem toNat_le_last (col : UInt32) : col.toNat ≤ last.toNat := Nat.le_of_lt_succ col.toNat_lt

/-- A word of capitals that denotes no number past the last column is the name of
the column with this number. -/
theorem exists_letters_eq {word : List Char} (hne : word ≠ []) (hword : ∀ c ∈ word, isCapital c = true)
    (hle : value word ≤ value (letters last)) : ∃ col, letters col = word := by
  obtain ⟨n, hn⟩ := Nat.exists_eq_add_one.2 (value_pos hne)
  have hlast : value (letters last) = 4294967296 := value_lettersOf last.toNat
  refine ⟨n.toUInt32, ?_⟩
  rw [letters, eq_lettersOf hword hn, Nat.toUInt32, UInt32.toNat_ofNat', Nat.mod_eq_of_lt (by omega)]

/-- The names of columns are in the order of the columns, and they are the words
of capitals up to the name of the last column in this order, without a gap. -/
theorem letters_in_order :
    (∀ a b : UInt32, List.Shortlex (· < ·) (letters a) (letters b) ↔ a < b) ∧
    ∀ word : List Char, (∃ col, letters col = word) ↔ word ≠ [] ∧ (∀ c ∈ word, isCapital c = true) ∧
      (word = letters last ∨ List.Shortlex (· < ·) word (letters last)) := by
  have hcapital : ∀ col : UInt32, ∀ c ∈ letters col, isCapital c = true := fun _ _ hc =>
    isCapital_of_mem_lettersOf hc
  have horder : ∀ a b : UInt32, List.Shortlex (· < ·) (letters a) (letters b) ↔ a < b := by
    intro a b
    rw [← value_lt_value_iff (hcapital a) (hcapital b), letters, letters, value_lettersOf, value_lettersOf,
      Nat.add_lt_add_iff_right, UInt32.lt_iff_toNat_lt]
  refine ⟨horder, fun word => ⟨?_, ?_⟩⟩
  · rintro ⟨col, rfl⟩
    refine ⟨lettersOf_ne_nil _, hcapital col, ?_⟩
    rcases Nat.lt_or_eq_of_le (toNat_le_last col) with hlt | heq
    · exact .inr ((horder col last).2 (UInt32.lt_iff_toNat_lt.2 hlt))
    · exact .inl (congrArg letters (UInt32.toNat_inj.1 heq))
  · rintro ⟨hne, hword, hlast⟩
    refine exists_letters_eq hne hword ?_
    rcases hlast with rfl | hbefore
    · exact Nat.le_refl _
    · exact Nat.le_of_lt ((value_lt_value_iff hword (hcapital last)).2 hbefore)

end Column

end Spreadsheet

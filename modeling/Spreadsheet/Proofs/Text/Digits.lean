import Mathlib.Tactic.Ring
import Spreadsheet.Proofs.Address.Notation

/-
  Numerals and their digits.

  Digits in front of others count by the length of these, so zeros in front count
  for nothing, and a numeral has one more digit than the power of ten it reaches.
-/

namespace Spreadsheet.Text

theorem natOfDigits_append (cs ds : List Char) :
    natOfDigits (cs ++ ds) = natOfDigits cs * 10 ^ ds.length + natOfDigits ds := by
  rw [natOfDigits_eq_ofDigits, natOfDigits_eq_ofDigits cs, natOfDigits_eq_ofDigits ds, List.reverse_append,
    List.map_append, Nat.ofDigits_append, List.length_map, List.length_reverse]
  ring

theorem natOfDigits_replicate_zero (k : Nat) : natOfDigits (List.replicate k '0') = 0 := by
  induction k with
  | zero => rfl
  | succ k ih =>
    rw [List.replicate_succ', natOfDigits_append_singleton, ih]
    rfl

theorem isDigit_of_mem_replicate {k : Nat} {c : Char} (h : c ∈ List.replicate k '0') : isDigit c = true := by
  rw [List.eq_of_mem_replicate h]
  rfl

theorem length_digits {n : Nat} (h : 0 < n) :
    10 ^ ((digits n).length - 1) ≤ n ∧ n < 10 ^ (digits n).length := by
  fun_induction digits n with
  | case1 n hn => exact ⟨h, by rwa [List.length_singleton, pow_one]⟩
  | case2 n hn ih =>
    obtain ⟨hlow, hhigh⟩ := ih (by omega)
    have hlength : 0 < (digits (n / 10)).length := List.length_pos_iff.2 (digits_ne_nil _)
    rw [List.length_append, List.length_singleton, Nat.add_sub_cancel, pow_succ]
    refine ⟨?_, by omega⟩
    rw [← Nat.sub_add_cancel hlength, Nat.add_sub_cancel] at hlow
    rw [← Nat.sub_add_cancel hlength, pow_succ]
    omega

theorem length_digits_le {n width : Nat} (h : n < 10 ^ width) (hwidth : 0 < width) :
    (digits n).length ≤ width := by
  rcases Nat.eq_zero_or_pos n with rfl | hpos
  · rwa [digits]
  · have hlow := (length_digits hpos).1
    have hlt := (Nat.pow_lt_pow_iff_right (by decide : 1 < 10)).1 (Nat.lt_of_le_of_lt hlow h)
    omega

/-! ## Numerals filled with zeros -/

variable {width n : Nat}

theorem natOfDigits_paddedDigits (width n : Nat) : natOfDigits (paddedDigits width n) = n := by
  rw [paddedDigits, natOfDigits_append, natOfDigits_replicate_zero, Nat.zero_mul, Nat.zero_add,
    natOfDigits_digits]

theorem isDigit_of_mem_paddedDigits {c : Char} (h : c ∈ paddedDigits width n) : isDigit c = true := by
  rcases List.mem_append.1 h with h | h
  · exact isDigit_of_mem_replicate h
  · exact isDigit_of_mem_digits h

theorem paddedDigits_ne_nil (width n : Nat) : paddedDigits width n ≠ [] :=
  List.append_ne_nil_of_right_ne_nil _ (digits_ne_nil n)

theorem exists_cons_paddedDigits (width n : Nat) :
    ∃ c cs, paddedDigits width n = c :: cs ∧ isDigit c = true := by
  obtain ⟨c, cs, hcs⟩ := List.exists_cons_of_ne_nil (paddedDigits_ne_nil width n)
  exact ⟨c, cs, hcs, isDigit_of_mem_paddedDigits (hcs ▸ List.mem_cons_self)⟩

theorem length_paddedDigits (h : n < 10 ^ width) (hwidth : 0 < width) :
    (paddedDigits width n).length = width := by
  rw [paddedDigits, List.length_append, List.length_replicate]
  exact Nat.sub_add_cancel (length_digits_le h hwidth)

/-! ## Words -/

theorem spells_eq_false {d : Char} (hd : d.toNat < 65) (cs : List Char) {c : Char} (hc : isCapital c = true)
    (word : List Char) :
    spells (String.ofList (c :: word)) (d :: cs) = false := by
  rw [isCapital_iff] at hc
  rw [spells, List.map_cons, toUpper_of_toNat_le (by omega), String.toList_ofList, beq_eq_false_iff_ne]
  intro heq
  cases heq
  omega

end Spreadsheet.Text

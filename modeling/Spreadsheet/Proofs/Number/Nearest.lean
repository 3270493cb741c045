import Mathlib.Algebra.Order.Field.Power
import Mathlib.Data.Int.Log
import Mathlib.Data.Rat.Floor
import Mathlib.Tactic.FieldSimp
import Mathlib.Tactic.Linarith
import Mathlib.Tactic.NormNum
import Mathlib.Tactic.Positivity
import Mathlib.Tactic.Ring
import Spreadsheet.Number.Nearest

/-
  Which double is nearest to a fraction.

  The binary logarithm by which the last place is chosen is that of the value of
  the fraction, and so the nearest double hangs on this value alone
  (`nearestParts_congr`). A double is the nearest one to itself
  (`nearestParts_parts`). Next to a positive double, below infinity, there are
  only fractions between `2^-1075` and `2^1024`.
-/

namespace Spreadsheet.Number

/-! ## Rounding a quotient -/

section

variable {num den num' den' : Nat}

theorem roundDiv_mul_left {k : Nat} (hk : 0 < k) : roundDiv (k * num) (k * den) = roundDiv num den := by
  have hlow : 2 * (k * (num % den)) < k * den ↔ 2 * (num % den) < den := by
    rw [Nat.mul_left_comm, Nat.mul_lt_mul_left hk]
  have hhigh : k * den < 2 * (k * (num % den)) ↔ den < 2 * (num % den) := by
    rw [Nat.mul_left_comm, Nat.mul_lt_mul_left hk]
  simp only [roundDiv, Nat.mul_div_mul_left _ _ hk, Nat.mul_mod_mul_left, hlow, hhigh]

theorem roundDiv_congr (hden : 0 < den) (hden' : 0 < den') (h : num * den' = num' * den) :
    roundDiv num den = roundDiv num' den' :=
  calc roundDiv num den = roundDiv (den' * num) (den' * den) := (roundDiv_mul_left hden').symm
    _ = roundDiv (den * num') (den * den') := by
      rw [Nat.mul_comm den' num, h, Nat.mul_comm num' den, Nat.mul_comm den' den]
    _ = roundDiv num' den' := roundDiv_mul_left hden

theorem roundDiv_mul_self (n : Nat) (hden : 0 < den) : roundDiv (n * den) den = n := by
  simp [roundDiv, Nat.mul_div_cancel _ hden, hden]

theorem roundDiv_of_lt (h : 2 * num < den) : roundDiv num den = 0 := by
  have hlt : num < den := by omega
  simp [roundDiv, Nat.div_eq_of_lt hlt, Nat.mod_eq_of_lt hlt, h]

end

/-! ## The last place -/

theorem two_zpow_pos (q : Int) : (0 : ℚ) < 2 ^ q := zpow_pos (by norm_num) q

theorem two_zpow_le_iff_le_log {r : ℚ} (hr : 0 < r) (q : Int) : (2 : ℚ) ^ q ≤ r ↔ q ≤ Int.log 2 r := by
  rw [← Int.zpow_le_iff_le_log (by norm_num) hr, Nat.cast_ofNat]

theorem lt_two_zpow_iff_log_lt {r : ℚ} (hr : 0 < r) (q : Int) : r < (2 : ℚ) ^ q ↔ Int.log 2 r < q := by
  rw [← Int.lt_zpow_iff_log_lt (by norm_num) hr, Nat.cast_ofNat]

theorem two_zpow_eq (q : Int) : (2 : ℚ) ^ q = (2 : ℚ) ^ q.toNat / (2 : ℚ) ^ (-q).toNat := by
  rw [← zpow_natCast, ← zpow_natCast, ← zpow_sub₀ (by norm_num)]
  congr 1
  omega

/-- Shifting numerator or denominator divides a fraction by a power of two. -/
theorem shifted_div (num den : Nat) (q : Int) :
    ((num <<< (-q).toNat : Nat) : ℚ) / (den <<< q.toNat : Nat) = (num : ℚ) / den / 2 ^ q := by
  rw [two_zpow_eq, Nat.shiftLeft_eq, Nat.shiftLeft_eq]
  push_cast
  field_simp

section

variable {num den num' den' : Nat} (hnum : 0 < num) (hden : 0 < den)

include hden in
theorem two_zpow_le_iff (q : Int) :
    (2 : ℚ) ^ q ≤ (num : ℚ) / den ↔ den <<< q.toNat ≤ num <<< (-q).toNat := by
  have hpos : (0 : ℚ) < (den <<< q.toNat : Nat) := by
    rw [Nat.shiftLeft_eq]
    positivity
  rw [← one_le_div₀ (two_zpow_pos q), ← shifted_div, one_le_div₀ hpos, Nat.cast_le]

include hnum hden

theorem fraction_pos : (0 : ℚ) < (num : ℚ) / den := by positivity

/-- The lengths of numerator and denominator tell the logarithm up to one. -/
theorem log2_sub_log2 :
    (2 : ℚ) ^ ((num.log2 : Int) - den.log2 - 1) ≤ (num : ℚ) / den ∧
      (num : ℚ) / den < 2 ^ ((num.log2 : Int) - den.log2 + 1) := by
  have hnumLow : (2 : ℚ) ^ num.log2 ≤ num := by exact_mod_cast Nat.log2_self_le hnum.ne'
  have hnumHigh : (num : ℚ) < 2 ^ (num.log2 + 1) := by exact_mod_cast Nat.lt_log2_self
  have hdenLow : (2 : ℚ) ^ den.log2 ≤ den := by exact_mod_cast Nat.log2_self_le hden.ne'
  have hdenHigh : (den : ℚ) < 2 ^ (den.log2 + 1) := by exact_mod_cast Nat.lt_log2_self
  constructor
  · calc (2 : ℚ) ^ ((num.log2 : Int) - den.log2 - 1) = 2 ^ num.log2 / 2 ^ (den.log2 + 1) := by
          rw [← zpow_natCast, ← zpow_natCast, ← zpow_sub₀ (by norm_num)]
          congr 1
          omega
      _ ≤ num / den := by gcongr
  · calc (num : ℚ) / den < 2 ^ (num.log2 + 1) / 2 ^ den.log2 := by gcongr
      _ = 2 ^ ((num.log2 : Int) - den.log2 + 1) := by
          rw [← zpow_natCast, ← zpow_natCast, ← zpow_sub₀ (by norm_num)]
          congr 1
          omega

theorem fractionLog2_eq_log : fractionLog2 num den = Int.log 2 ((num : ℚ) / den) := by
  have hpos := fraction_pos hnum hden
  obtain ⟨hlow, hhigh⟩ := log2_sub_log2 hnum hden
  rw [two_zpow_le_iff_le_log hpos] at hlow
  rw [lt_two_zpow_iff_log_lt hpos] at hhigh
  have hiff := two_zpow_le_iff_le_log hpos (num.log2 - den.log2)
  rw [two_zpow_le_iff hden] at hiff
  simp only [fractionLog2]
  split <;> omega

theorem lastPlace_eq : lastPlace num den = max (Int.log 2 ((num : ℚ) / den) - 52) (-1074) := by
  rw [lastPlace, fractionLog2_eq_log hnum hden]

/-- Of a fraction only its value counts. -/
theorem nearestParts_congr (hden' : 0 < den') (h : (num : ℚ) / den = (num' : ℚ) / den') :
    nearestParts num den = nearestParts num' den' := by
  have hcross : num * den' = num' * den := by
    rw [div_eq_div_iff (by positivity) (by positivity)] at h
    exact_mod_cast h
  have hnum' : 0 < num' := by
    rcases Nat.eq_zero_or_pos num' with rfl | hpos
    · rw [Nat.zero_mul, Nat.mul_eq_zero] at hcross
      omega
    · exact hpos
  have hplace : lastPlace num den = lastPlace num' den' := by
    rw [lastPlace_eq hnum hden, lastPlace_eq hnum' hden', h]
  have hround : ∀ a b, roundDiv (num <<< a) (den <<< b) = roundDiv (num' <<< a) (den' <<< b) := by
    intro a b
    simp only [Nat.shiftLeft_eq]
    refine roundDiv_congr (by positivity) (by positivity) ?_
    calc num * 2 ^ a * (den' * 2 ^ b) = num * den' * (2 ^ a * 2 ^ b) := by ring
      _ = num' * den * (2 ^ a * 2 ^ b) := by rw [hcross]
      _ = num' * 2 ^ a * (den * 2 ^ b) := by ring
  simp only [nearestParts, hplace, hround]

end

/-! ## The parts of a double -/

/-- Mantissa and exponent of a positive double. -/
structure IsDouble (m : Nat) (q : Int) : Prop where
  pos : 0 < m
  lt_full : m < 2 ^ 53
  least_le : -1074 ≤ q
  le_greatest : q ≤ 971
  /-- Only in the last place of all there are mantissas that are not full. -/
  full : 2 ^ 52 ≤ m ∨ q = -1074

variable {m : Nat} {q : Int}

theorem parts_div (m : Nat) (q : Int) :
    ((m <<< q.toNat : Nat) : ℚ) / (1 <<< (-q).toNat : Nat) = m * 2 ^ q := by
  rw [two_zpow_eq, Nat.shiftLeft_eq, Nat.shiftLeft_eq]
  push_cast
  ring

theorem IsDouble.lastPlace (h : IsDouble m q) : lastPlace (m <<< q.toNat) (1 <<< (-q).toNat) = q := by
  have hm := h.pos
  have hlow : (1 : ℚ) ≤ m := by exact_mod_cast hm
  have hhigh : (m : ℚ) < 2 ^ (53 : Int) := by exact_mod_cast h.lt_full
  have hvalue : (0 : ℚ) < m * 2 ^ q := mul_pos (by linarith) (two_zpow_pos q)
  have hlog : Int.log 2 ((m : ℚ) * 2 ^ q) < 53 + q := by
    rw [← lt_two_zpow_iff_log_lt hvalue, zpow_add₀ (by norm_num)]
    exact mul_lt_mul_of_pos_right hhigh (two_zpow_pos q)
  rw [lastPlace_eq (by rw [Nat.shiftLeft_eq]; positivity) (by rw [Nat.shiftLeft_eq]; positivity), parts_div]
  rcases h.full with hfull | rfl
  · have hfull : (2 : ℚ) ^ (52 : Int) ≤ m := by exact_mod_cast hfull
    have hle : 52 + q ≤ Int.log 2 ((m : ℚ) * 2 ^ q) := by
      rw [← two_zpow_le_iff_le_log hvalue, zpow_add₀ (by norm_num)]
      exact mul_le_mul_of_nonneg_right hfull (two_zpow_pos q).le
    have := h.least_le
    omega
  · omega

theorem IsDouble.nearestParts_parts (h : IsDouble m q) :
    nearestParts (m <<< q.toNat) (1 <<< (-q).toNat) = (m, q) := by
  have hround : roundDiv ((m <<< q.toNat) <<< (-q).toNat) ((1 <<< (-q).toNat) <<< q.toNat) = m := by
    simp only [Nat.shiftLeft_eq, Nat.one_mul]
    rw [Nat.mul_assoc, Nat.mul_comm (2 ^ (-q).toNat)]
    exact roundDiv_mul_self m (by positivity)
  have hfull : m ≠ 2 * leastFull := h.lt_full.ne
  simp only [nearestParts, h.lastPlace, hround, if_neg hfull]

theorem IsDouble.nearestParts_eq {num den : Nat} (h : IsDouble m q) (hden : 0 < den)
    (hvalue : (num : ℚ) / den = m * 2 ^ q) : nearestParts num den = (m, q) := by
  have hm := h.pos
  rw [← h.nearestParts_parts]
  symm
  refine nearestParts_congr ?_ ?_ hden ?_
  · rw [Nat.shiftLeft_eq]
    positivity
  · rw [Nat.shiftLeft_eq]
    positivity
  · rw [parts_div, hvalue]

/-! ## The range of doubles -/

theorem nearestParts_zero (den : Nat) : (nearestParts 0 den).1 = 0 := by
  have hround : ∀ a b, roundDiv (0 <<< a) (den <<< b) = 0 := by
    intro a b
    simp [roundDiv]
  simp only [nearestParts, hround]
  rfl

section

variable {num den : Nat} (hnum : 0 < num) (hden : 0 < den)

include hnum hden

/-- Below half the least double there is only zero. -/
theorem nearestParts_of_lt (h : (num : ℚ) / den < 2 ^ (-1075 : Int)) : (nearestParts num den).1 = 0 := by
  have hlog := (lt_two_zpow_iff_log_lt (fraction_pos hnum hden) _).1 h
  have hplace : lastPlace num den = -1074 := by
    rw [lastPlace_eq hnum hden]
    omega
  have hsmall : 2 * num <<< (1074 : Int).toNat < den <<< (-1074 : Int).toNat := by
    have hshift := not_le.1 ((two_zpow_le_iff hden (-1075)).not.1 (not_le.2 h))
    rwa [show (- -1075 : Int).toNat = (1074 : Int).toNat + 1 from rfl, Nat.shiftLeft_succ] at hshift
  have hround : roundDiv (num <<< (1074 : Int).toNat) (den <<< (-1074 : Int).toNat) = 0 :=
    roundDiv_of_lt hsmall
  simp only [nearestParts, hplace, Int.neg_neg, hround]
  rfl

/-- From `2^1024` on there is no finite double. -/
theorem lt_nearestParts_of_le (h : (2 : ℚ) ^ (1024 : Int) ≤ (num : ℚ) / den) :
    971 < (nearestParts num den).2 := by
  have hlog := (two_zpow_le_iff_le_log (fraction_pos hnum hden) _).1 h
  have hplace : 971 < lastPlace num den := by
    rw [lastPlace_eq hnum hden]
    omega
  simp only [nearestParts]
  split <;> simp only <;> omega

end

end Spreadsheet.Number

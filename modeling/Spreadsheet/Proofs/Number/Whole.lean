import Spreadsheet.Number.Integer
import Spreadsheet.Proofs.Number.Negation
import Spreadsheet.Proofs.Number.RoundTrip

/-
  Whole numbers as doubles.

  A whole number of at most 53 binary digits is a double: with as many zeros
  behind them as there is room for, the digits are its mantissa. So the numeral of
  such a number is read as the number itself, and so is what counts up to it;
  nothing is rounded on the way (`roundWithAccuracy_exact`). What is read from a
  numeral is whole, and truncating it gives the number back.
-/

namespace Spreadsheet.Number

open Text (isDigit natOfDigits)
open Float.Model (UnpackedFloat Format totalExponent)
open Float.Model.UnpackedFloat (Sign Accuracy ExtendedMantissa shiftToTargetExponent shiftToExponent
  roundWithAccuracy)

/-! ## The parts of a whole number -/

/-- The number of binary places that a whole number leaves free in a mantissa. -/
def freePlaces (n : Nat) : Nat := 52 - n.log2

variable {n m : Nat} {q : Int}

theorem log2_mul_two_pow (hm : 0 < m) (k : Nat) : (m * 2 ^ k).log2 = m.log2 + k := by
  have hlow := Nat.mul_le_mul_right (2 ^ k) (Nat.log2_self_le hm.ne')
  have hhigh := Nat.mul_lt_mul_of_pos_right (Nat.lt_log2_self (n := m)) (Nat.two_pow_pos k)
  rw [← Nat.pow_add] at hlow hhigh
  rw [Nat.log2_eq_iff (Nat.mul_pos hm (Nat.two_pow_pos k)).ne', Nat.add_right_comm]
  exact ⟨hlow, hhigh⟩

theorem log2_add_freePlaces (hn : 0 < n) (h : n < 2 ^ 53) : n.log2 + freePlaces n = 52 := by
  have := (Nat.log2_lt hn.ne').2 h
  rw [freePlaces]
  omega

/-- A whole number fills a mantissa with zeros behind its digits. -/
theorem isDouble_of_lt (hn : 0 < n) (h : n < 2 ^ 53) : IsDouble (n * 2 ^ freePlaces n) (-freePlaces n) := by
  have hplaces := log2_add_freePlaces hn h
  have hpos : 0 < n * 2 ^ freePlaces n := Nat.mul_pos hn (Nat.two_pow_pos _)
  obtain ⟨hlow, hhigh⟩ := (Nat.log2_eq_iff hpos.ne').1 ((log2_mul_two_pow hn _).trans hplaces)
  exact ⟨hpos, hhigh, by omega, by omega, .inl hlow⟩

theorem whole?_of_unpack {x : Float} {negative : Bool} {k : Nat} {hm : 0 < n * 2 ^ k}
    (h : x.toModel.unpack = .finite (signOf negative) (n * 2 ^ k) (-k) hm) :
    whole? x = some (withSign (signOf negative) n) := by
  have hneg : (-(-(k : Int))).toNat = k := by omega
  have hpos : (-(k : Int)).toNat = 0 := by omega
  unfold whole?
  rw [h]
  dsimp only
  rw [hneg, hpos, Nat.one_shiftLeft, Nat.mul_mod_left, if_pos rfl, Nat.shiftLeft_zero,
    Nat.shiftRight_eq_div_pow, Nat.mul_div_cancel _ (Nat.two_pow_pos k)]

theorem isFinite_of_whole {x : Float} {z : Int} (h : whole? x = some z) : x.isFinite = true := by
  show x.toModel.unpack.isFinite = true
  unfold whole? at h
  cases hx : x.toModel.unpack with
  | zero s => rfl
  | finite s m q hm => rfl
  | notANumber =>
    rw [hx] at h
    cases h
  | infinity s =>
    rw [hx] at h
    cases h

theorem truncate_of_whole {x : Float} {least greatest z : Int} (h : whole? x = some z) (hleast : least ≤ z)
    (hgreatest : z ≤ greatest) : truncate least greatest x = z := by
  unfold whole? at h
  unfold truncate
  split at h
  · cases h
    rename_i hzero
    rw [hzero]
  · rename_i s m q hm hfinite
    rw [hfinite]
    split at h
    · cases h
      dsimp only
      rw [min_eq_right hgreatest, max_eq_right hleast]
    · cases h
  · cases h

theorem whole?_neg (x : Float) : whole? (-x) = (whole? x).map (- ·) := by
  have hsign : ∀ (s : Sign) (n : Nat), withSign (-s) n = -withSign s n := by
    intro s n
    cases s with
    | positive => rfl
    | negative => exact (Int.neg_neg _).symm
  unfold whole?
  rw [unpack_neg]
  cases x.toModel.unpack with
  | zero s => rfl
  | notANumber => rfl
  | infinity s => rfl
  | finite s m q hm =>
    simp only [UnpackedFloat.neg, hsign]
    split <;> rfl

/-! ## Numerals -/

/-- Digits that stand for at most 53 binary ones are read as the number they stand
for. -/
theorem ofText_of_digits {ds : List Char} (hne : ds ≠ []) (hds : ∀ c ∈ ds, isDigit c = true)
    (h : natOfDigits ds < 2 ^ 53) : ∃ x, ofText ds = some x ∧ whole? x = some (natOfDigits ds : Int) := by
  have hbody := IsPositional.of_digits hne hds
  have hread : ofLiteral ds = some (ofDigits false ds 0) := by
    have hsigned := hbody.ofLiteral_signed false
    rwa [List.append_nil] at hsigned
  rcases Nat.eq_zero_or_pos (natOfDigits ds) with hzero | hpos
  · have hdigits : ofDigits false ds 0 = ofParts false 0 0 := by simp [ofDigits, hzero]
    have hunpack := unpack_ofParts_zero false 0
    have hfinite : (ofParts false 0 0).isFinite = true := congrArg UnpackedFloat.isFinite hunpack
    refine ⟨ofParts false 0 0, ?_, ?_⟩
    · rw [ofText, hread, hdigits, Option.filter_some, if_pos hfinite]
    · rw [whole?, hunpack, hzero]
      rfl
  · have hdouble := isDouble_of_lt hpos h
    have hunpack := hdouble.unpack_ofParts false
    have hvalue : Decimal.value ⟨natOfDigits ds, 0⟩ =
        (natOfDigits ds * 2 ^ freePlaces (natOfDigits ds) : Nat) * 2 ^ (-freePlaces (natOfDigits ds) : Int) := by
      rw [Decimal.value, zpow_zero, mul_one, zpow_neg, zpow_natCast]
      push_cast
      rw [mul_assoc, mul_inv_cancel₀ (by positivity), mul_one]
    have hfinite : (ofParts false (natOfDigits ds * 2 ^ freePlaces (natOfDigits ds))
        (-freePlaces (natOfDigits ds))).isFinite = true :=
      congrArg UnpackedFloat.isFinite hunpack
    refine ⟨_, ?_, whole?_of_unpack hunpack⟩
    rw [ofText, hread, ofDigits_eq hdouble hds (hdouble.nearestParts_of_value hvalue), Option.filter_some,
      if_pos hfinite]

/-! ## Counts -/

theorem IsDouble.targetExponent (h : IsDouble m q) (k : Nat) :
    Format.targetExponent .binary64 (totalExponent (m * 2 ^ k) (q - k)) = q := by
  have hlog := (Nat.log2_lt h.pos.ne').2 h.lt_full
  have hleast := h.least_le
  have hfull : m.log2 = 52 ∨ q = -1074 :=
    h.full.imp_left fun hlow => (Nat.log2_eq_iff h.pos.ne').2 ⟨hlow, h.lt_full⟩
  rw [totalExponent, log2_mul_two_pow h.pos]
  show max ((m.log2 + k : Nat) + 1 + (q - k) - 53) (-1074) = q
  omega

/-- Zeros behind a mantissa are shifted out without a trace. -/
theorem shiftRight_exact (m k : Nat) :
    (⟨m * 2 ^ k, false, false⟩ : ExtendedMantissa) >>> k = ⟨m, false, false⟩ := by
  show Nat.repeat ExtendedMantissa.shiftRightOne k ⟨m * 2 ^ k, false, false⟩ = _
  induction k generalizing m with
  | zero => simp [Nat.repeat]
  | succ k ih =>
    rw [Nat.repeat, show m * 2 ^ (k + 1) = m * 2 * 2 ^ k by ring, ih]
    simp [ExtendedMantissa.shiftRightOne]

theorem IsDouble.shiftToTargetExponent (h : IsDouble m q) (k : Nat) :
    shiftToTargetExponent .binary64 (m * 2 ^ k) (q - k) .exact = (⟨m, false, false⟩, q) := by
  have hplaces : (q - (q - k)).toNat = k := by omega
  have hexponent : q - k + k = q := by omega
  rw [UnpackedFloat.shiftToTargetExponent, h.targetExponent]
  simp only [shiftToExponent, hplaces, hexponent, ExtendedMantissa.ofMantissaAndAccuracy, shiftRight_exact]

/-- A double is not rounded, whatever zeros there are behind its mantissa. -/
theorem roundWithAccuracy_exact (h : IsDouble m q) (s : Sign) (k : Nat) :
    roundWithAccuracy .binary64 s (m * 2 ^ k) (q - k) .exact = .finite s m q h.pos := by
  have hagain : shiftToTargetExponent .binary64 m q .exact = (⟨m, false, false⟩, q) := by
    have hzero := h.shiftToTargetExponent 0
    rwa [pow_zero, Nat.mul_one, Int.natCast_zero, Int.sub_zero] at hzero
  have hrounded : ExtendedMantissa.roundedMantissa ⟨m, false, false⟩ = m := rfl
  rw [roundWithAccuracy, h.shiftToTargetExponent k]
  simp only [hrounded, hagain, h.pos.ne', dif_neg, not_false_eq_true]

theorem round_exact (hn : 0 < n) (h : n < 2 ^ 53) (s : Sign) :
    UnpackedFloat.round .binary64 s n 0 =
      .finite s (n * 2 ^ freePlaces n) (-freePlaces n) (isDouble_of_lt hn h).pos := by
  have hplaces := log2_add_freePlaces hn h
  have htarget : Format.targetExponent .binary64 (totalExponent n 0) = -freePlaces n := by
    show max ((n.log2 : Int) + 1 + 0 - 53) (-1074) = _
    omega
  have hshift : (0 - -(freePlaces n : Int)).toNat = freePlaces n := by omega
  have hexact := roundWithAccuracy_exact (isDouble_of_lt hn h) s 0
  rw [pow_zero, Nat.mul_one, Int.natCast_zero, Int.sub_zero] at hexact
  rw [UnpackedFloat.round, htarget, UnpackedFloat.decreaseExponent, hshift]
  dsimp only
  rw [Int.zero_sub, Nat.shiftLeft_eq, hexact]

theorem ofParts_mul_one (h : IsDouble m q) (negative : Bool) : ofParts negative m q * 1.0 = ofParts negative m q := by
  have hone : (1.0 : Float).toModel.unpack = .finite .positive (2 ^ 52) (-52) (Nat.two_pow_pos 52) := rfl
  have hsign : signOf negative * .positive = signOf negative := by cases negative <;> rfl
  calc ofParts negative m q * 1.0
      = Float.ofModel (.pack (.mul .binary64 (ofParts negative m q).toModel.unpack
          (1.0 : Float).toModel.unpack)) := rfl
    _ = Float.ofModel (.pack (roundWithAccuracy .binary64 (signOf negative * .positive)
          (m * 2 ^ 52) (q - (52 : Nat)) .exact)) := by
      rw [h.unpack_ofParts, hone]
      rfl
    _ = Float.ofModel (.pack (.finite (signOf negative) m q h.pos)) := by
      rw [hsign, roundWithAccuracy_exact h]
    _ = ofParts negative m q := by rw [ofParts, dif_pos h.pos]

theorem whole?_ofNat (h : n < 2 ^ 53) : whole? (Float.ofNat n) = some (n : Int) := by
  rcases Nat.eq_zero_or_pos n with rfl | hn
  · rfl
  · have hsize : (2 : Nat) ^ 53 ≤ 2 ^ 64 := Nat.pow_le_pow_right (by decide) (by decide)
    have hword : n.toUInt64.toNat = n := Nat.mod_eq_of_lt (lt_of_lt_of_le h hsize)
    have hdouble := isDouble_of_lt hn h
    have hparts : n.toUInt64.toFloat = ofParts false (n * 2 ^ freePlaces n) (-freePlaces n) := by
      have hcompare : compare (n : Int) 0 = .gt := Int.compare_eq_gt.2 (by omega)
      show Float.ofModel (.pack (.normalize .binary64 (n.toUInt64.toNat : Int) 0 .positive)) = _
      rw [hword, UnpackedFloat.normalize, hcompare]
      dsimp only
      rw [Int.toNat_natCast, round_exact hn h, ofParts, dif_pos hdouble.pos]
      rfl
    have hproduct : Float.ofNat n = n.toUInt64.toFloat * 1.0 := by
      show Float.ofScientific n false 0 = _
      rw [Float.ofScientific, dif_pos ⟨h, by decide⟩]
      rfl
    rw [hproduct, hparts, ofParts_mul_one hdouble]
    exact whole?_of_unpack (hdouble.unpack_ofParts false)

end Spreadsheet.Number

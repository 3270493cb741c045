import Mathlib
import Spreadsheet.Proofs.Number.Nearest

/-
  The bits of a double.

  A double is stored as a sign, an exponent that is counted from one, and the
  mantissa without its leading one; at the exponent zero the mantissa has none.
  So a stored number that is finite and not zero has the parts of a positive
  double (`isDouble_of_unpack`), and the double made of its parts is this number
  again (`ofParts_of_unpack`); the other way round, what is made of the parts of a
  double has them (`IsDouble.unpack_ofParts`).
-/

namespace Spreadsheet.Number

open Float.Model (UnpackedFloat Format)
open Float.Model.UnpackedFloat (Sign packComponents unpackExponent unpackMantissa)

/-! ## Fields -/

theorem toNat_one_append (b : BitVec 52) : (1#1 ++ b).toNat = 2 ^ 52 + b.toNat := by
  rw [BitVec.toNat_append, ← Nat.shiftLeft_add_eq_or_of_lt b.isLt, Nat.shiftLeft_eq]
  simp

variable {b : BitVec Format.binary64.numBits} {s : Sign} {m : Nat} {q : Int} {hm : 0 < m}

/-- The exponent and the mantissa of a finite number. -/
theorem fields_of_unpack (h : UnpackedFloat.unpack .binary64 b = .finite s m q hm) :
    ((unpackMantissa b).toNat = m ∧ q = -1074) ∨
      ((unpackExponent b).toNat ≠ 0 ∧ (unpackExponent b).toNat ≠ 2047 ∧
        2 ^ 52 + (unpackMantissa b).toNat = m ∧ q = (unpackExponent b).toNat - 1075) := by
  have hbias : (Format.binary64.exponentBias : Int) + Format.binary64.mantissaBitsWithoutImplicit = 1075 := rfl
  rw [UnpackedFloat.unpack] at h
  simp only [hbias] at h
  split at h
  · -- infinity, or what is no number
    split at h <;> cases h
  · rename_i hgreatest
    split at h
    · -- zero, or a mantissa without the leading one
      rename_i hzero
      split at h
      · cases h
      · injection h with hs hm hq
        refine .inl ⟨hm, ?_⟩
        rw [← hq, hzero]
        rfl
    · rename_i hzero
      injection h with hs hm hq
      refine .inr ⟨fun h0 => hzero (BitVec.toNat_inj.1 h0), fun h1 => hgreatest (BitVec.toNat_inj.1 h1), ?_, hq.symm⟩
      rw [← hm]
      exact (toNat_one_append (unpackMantissa b)).symm

/-- A finite number that is not zero has the parts of a double. -/
theorem isDouble_of_unpack (h : UnpackedFloat.unpack .binary64 b = .finite s m q hm) : IsDouble m q := by
  have hmantissa : (unpackMantissa b).toNat < 2 ^ 52 := (unpackMantissa b).isLt
  have hexponent : (unpackExponent b).toNat < 2 ^ 11 := (unpackExponent b).isLt
  obtain ⟨rfl, rfl⟩ | ⟨hzero, hgreatest, rfl, rfl⟩ := fields_of_unpack h
  · exact ⟨hm, by omega, by omega, by omega, .inr rfl⟩
  · exact ⟨hm, by omega, by omega, by omega, .inl (by omega)⟩

theorem ofBitVec_toBitVec (s : Sign) : Sign.ofBitVec s.toBitVec = s := by cases s <;> rfl

/-- At the exponent zero the stored mantissa is the whole one. -/
theorem unpack_packComponents_zero (s : Sign) (hm : 0 < m) (hfull : m < 2 ^ 52) :
    UnpackedFloat.unpack .binary64 (packComponents .binary64 s 0#_ (BitVec.ofNat _ m)) =
      .finite s m (-1074) hm := by
  have hmantissa : (BitVec.ofNat 52 m).toNat = m := by
    rw [BitVec.toNat_ofNat, Nat.mod_eq_of_lt hfull]
  have hne : ¬ BitVec.ofNat 52 m = 0#52 := by
    intro hzero
    rw [hzero] at hmantissa
    exact hm.ne hmantissa
  simp only [UnpackedFloat.unpack, UnpackedFloat.unpackSign_packComponents, ofBitVec_toBitVec,
    UnpackedFloat.unpackExponent_packComponents, UnpackedFloat.unpackMantissa_packComponents]
  rw [if_neg (by decide), if_pos trivial, dif_neg hne]
  simp only [hmantissa]
  rfl

/-- At any other exponent but the greatest there is a one in front of it. -/
theorem unpack_packComponents (s : Sign) {e : Nat} (hlow : 2 ^ 52 ≤ m) (hfull : m < 2 ^ 53) (hzero : e ≠ 0)
    (hgreatest : e < 2047) :
    UnpackedFloat.unpack .binary64 (packComponents .binary64 s (BitVec.ofNat _ e) (BitVec.ofNat _ m)) =
      .finite s m (e - 1075) (lt_of_lt_of_le (Nat.two_pow_pos 52) hlow) := by
  have hexponent : (BitVec.ofNat 11 e).toNat = e := by
    rw [BitVec.toNat_ofNat, Nat.mod_eq_of_lt (by omega)]
  have hmantissa : (1#1 ++ BitVec.ofNat 52 m).toNat = m := by
    rw [toNat_one_append, BitVec.toNat_ofNat]
    omega
  have hne : ∀ b : BitVec 11, e ≠ b.toNat → ¬ BitVec.ofNat 11 e = b := by
    rintro b hb rfl
    exact hb hexponent.symm
  simp only [UnpackedFloat.unpack, UnpackedFloat.unpackSign_packComponents, ofBitVec_toBitVec,
    UnpackedFloat.unpackExponent_packComponents, UnpackedFloat.unpackMantissa_packComponents]
  rw [if_neg (hne (-1#11) hgreatest.ne), if_neg (hne 0#11 hzero)]
  simp only [hmantissa, hexponent]
  rfl

/-! ## Doubles and their parts -/

theorem exists_signOf (s : Sign) : ∃ negative, signOf negative = s := by
  cases s with
  | negative => exact ⟨true, rfl⟩
  | positive => exact ⟨false, rfl⟩

variable {x : Float} {negative : Bool}

/-- The bits of a double are its parts again. -/
theorem pack_unpack_toBits (x : Float) :
    UnpackedFloat.pack .binary64 x.toModel.unpack = x.toBits.toBitVec :=
  UnpackedFloat.pack_unpack_of_valid x.toModel.valid

theorem ofParts_of_unpack (h : x.toModel.unpack = .finite (signOf negative) m q hm) :
    ofParts negative m q = x := by
  have hpack := pack_unpack_toBits x
  rw [h] at hpack
  rw [← Float.toBits_inj, ← UInt64.toBitVec_inj, ← hpack, ofParts, dif_pos hm]
  rfl

theorem IsDouble.unpack_ofParts (h : IsDouble m q) (negative : Bool) :
    (ofParts negative m q).toModel.unpack = .finite (signOf negative) m q h.pos := by
  have hleast := h.least_le
  have hgreatest := h.le_greatest
  have hbias : (q + Format.binary64.exponentBias + Format.binary64.mantissaBitsWithoutImplicit : Int) = q + 1075 := by
    show q + 1023 + 52 = _
    omega
  have hfinite : ¬ 2 ^ Format.binary64.exponentBits ≤ (q + 1075).toNat + 1 := by
    show ¬ 2048 ≤ _
    omega
  rw [ofParts, dif_pos h.pos]
  show UnpackedFloat.unpack .binary64 (UnpackedFloat.pack .binary64 _) = _
  simp only [UnpackedFloat.pack, hbias, if_neg hfinite]
  by_cases hfull : 2 ^ 52 ≤ m
  · have hlog : m.log2 + 1 = Format.mantissaBits .binary64 :=
      congrArg (· + 1) ((Nat.log2_eq_iff h.pos.ne').2 ⟨hfull, h.lt_full⟩)
    rw [if_pos hlog, unpack_packComponents _ hfull h.lt_full (by omega) (by omega)]
    congr 1
    omega
  · obtain rfl : q = -1074 := h.full.resolve_left hfull
    have hlog : ¬ m.log2 + 1 = Format.mantissaBits .binary64 := by
      show ¬ m.log2 + 1 = 53
      have := (Nat.log2_lt h.pos.ne').2 (not_le.1 hfull)
      omega
    rw [if_neg hlog]
    exact unpack_packComponents_zero _ h.pos (not_le.1 hfull)

theorem unpack_ofParts_zero (negative : Bool) (q : Int) :
    (ofParts negative 0 q).toModel.unpack = .zero (signOf negative) := by
  rw [ofParts, dif_neg (Nat.lt_irrefl 0)]
  cases negative <;> rfl

theorem unpack_of_isFinite (h : x.isFinite = true) :
    (∃ negative, x.toModel.unpack = .zero (signOf negative)) ∨
      ∃ negative m q, ∃ hm : 0 < m, x.toModel.unpack = .finite (signOf negative) m q hm := by
  have hfinite : x.toModel.unpack.isFinite = true := h
  cases hx : x.toModel.unpack with
  | notANumber => rw [hx] at hfinite; cases hfinite
  | infinity s => rw [hx] at hfinite; cases hfinite
  | zero s =>
    obtain ⟨negative, rfl⟩ := exists_signOf s
    exact .inl ⟨negative, rfl⟩
  | finite s m q hm =>
    obtain ⟨negative, rfl⟩ := exists_signOf s
    exact .inr ⟨negative, m, q, hm, rfl⟩

end Spreadsheet.Number

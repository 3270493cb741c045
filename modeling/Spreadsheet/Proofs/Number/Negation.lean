import Spreadsheet.Proofs.Number.Double
import Spreadsheet.Proofs.Number.Literal

/-
  Negation.

  A double and its negation differ in the sign alone (`unpack_neg`), so negating
  twice changes nothing, and a minus in front of a literal negates the number it
  denotes. The number that is added to zero, or subtracted from it, comes out
  with its own sign, but for the sign of a zero (`SameNumber.zero_add`,
  `SameNumber.zero_sub`).
-/

namespace Spreadsheet.Number

open Text (isDigit)
open Float.Model (UnpackedFloat Format)
open Float.Model.UnpackedFloat (packComponents)

/-! ## The sign of a double -/

theorem exists_packComponents (m : Nat) (q : Int) (hm : 0 < m) :
    ∃ exponent mantissa, ∀ s, UnpackedFloat.pack .binary64 (.finite s m q hm) =
      packComponents .binary64 s exponent mantissa := by
  simp only [UnpackedFloat.pack]
  split
  · exact ⟨_, _, fun _ => rfl⟩
  · split
    · exact ⟨_, _, fun _ => rfl⟩
    · exact ⟨_, _, fun _ => rfl⟩

theorem unpack_packComponents_neg (s : UnpackedFloat.Sign) (exponent : BitVec Format.binary64.exponentBits)
    (mantissa : BitVec Format.binary64.mantissaBitsWithoutImplicit) :
    UnpackedFloat.unpack .binary64 (packComponents .binary64 (-s) exponent mantissa) =
      (UnpackedFloat.unpack .binary64 (packComponents .binary64 s exponent mantissa)).neg := by
  simp only [UnpackedFloat.unpack, UnpackedFloat.unpackSign_packComponents, ofBitVec_toBitVec,
    UnpackedFloat.unpackExponent_packComponents, UnpackedFloat.unpackMantissa_packComponents]
  split
  · split <;> rfl
  · split
    · split <;> rfl
    · rfl

/-- What is packed with the other sign is unpacked with the other sign. -/
theorem unpack_pack_neg (u : UnpackedFloat) :
    UnpackedFloat.unpack .binary64 (UnpackedFloat.pack .binary64 u.neg) =
      (UnpackedFloat.unpack .binary64 (UnpackedFloat.pack .binary64 u)).neg := by
  cases u with
  | notANumber => rfl
  | infinity s => exact unpack_packComponents_neg s _ _
  | zero s => exact unpack_packComponents_neg s _ _
  | finite s m q hm =>
    obtain ⟨exponent, mantissa, hpack⟩ := exists_packComponents m q hm
    rw [UnpackedFloat.neg, hpack, hpack]
    exact unpack_packComponents_neg s exponent mantissa

theorem neg_neg_unpacked (u : UnpackedFloat) : u.neg.neg = u := by
  have hsign : ∀ s : UnpackedFloat.Sign, - -s = s := by
    intro s
    cases s <;> rfl
  cases u <;> simp only [UnpackedFloat.neg, hsign]

theorem pack_unpack (x : Float) : Float.ofModel (.pack x.toModel.unpack) = x := by
  rw [← Float.toBits_inj, ← UInt64.toBitVec_inj, ← pack_unpack_toBits x]
  rfl

theorem unpack_neg (x : Float) : (-x).toModel.unpack = x.toModel.unpack.neg := by
  calc (-x).toModel.unpack
      = UnpackedFloat.unpack .binary64 (UnpackedFloat.pack .binary64 x.toModel.unpack.neg) := rfl
    _ = (UnpackedFloat.unpack .binary64 (UnpackedFloat.pack .binary64 x.toModel.unpack)).neg := unpack_pack_neg _
    _ = (UnpackedFloat.unpack .binary64 x.toBits.toBitVec).neg := by rw [pack_unpack_toBits]
    _ = x.toModel.unpack.neg := rfl

theorem neg_neg (x : Float) : - -x = x := by
  calc - -x = Float.ofModel (.pack (-x).toModel.unpack.neg) := rfl
    _ = Float.ofModel (.pack x.toModel.unpack) := by rw [unpack_neg, neg_neg_unpacked]
    _ = x := pack_unpack x

theorem isFinite_neg (x : Float) : (-x).isFinite = x.isFinite := by
  show (-x).toModel.unpack.isFinite = x.toModel.unpack.isFinite
  rw [unpack_neg]
  cases x.toModel.unpack <;> rfl

/-! ## Zeros -/

def IsZero (x : Float) : Prop := x = 0.0 ∨ x = -0.0

/-- Whether two numbers are the same but for the sign of a zero. -/
def SameNumber (x y : Float) : Prop := x = y ∨ IsZero x ∧ IsZero y

theorem isZero_iff {x : Float} : IsZero x ↔ ∃ s, x.toModel.unpack = .zero s := by
  constructor
  · rintro (rfl | rfl)
    · exact ⟨.positive, rfl⟩
    · exact ⟨.negative, rfl⟩
  · rintro ⟨s, hs⟩
    rw [← pack_unpack x, hs]
    cases s with
    | positive => exact .inl rfl
    | negative => exact .inr rfl

namespace IsZero

variable {z w : Float}

theorem neg (hz : IsZero z) : IsZero (-z) := by
  rcases hz with rfl | rfl
  · exact .inr rfl
  · exact .inl rfl

theorem add (hz : IsZero z) (hw : IsZero w) : IsZero (z + w) := by
  rcases hz with rfl | rfl <;> rcases hw with rfl | rfl <;> first | exact .inl rfl | exact .inr rfl

theorem sub (hz : IsZero z) (hw : IsZero w) : IsZero (z - w) := by
  rcases hz with rfl | rfl <;> rcases hw with rfl | rfl <;> first | exact .inl rfl | exact .inr rfl

end IsZero

namespace SameNumber

variable {x y z : Float}

theorem refl (x : Float) : SameNumber x x := .inl rfl

theorem trans (hxy : SameNumber x y) (hyz : SameNumber y z) : SameNumber x z := by
  rcases hxy with rfl | ⟨hx, hy⟩
  · exact hyz
  · rcases hyz with rfl | ⟨-, hz⟩
    · exact .inr ⟨hx, hy⟩
    · exact .inr ⟨hx, hz⟩

theorem zero_add (hz : IsZero z) (x : Float) : SameNumber (z + x) x := by
  by_cases hx : IsZero x
  · exact .inr ⟨hz.add hx, hx⟩
  · obtain ⟨s, hs⟩ := isZero_iff.1 hz
    refine .inl ?_
    calc z + x = Float.ofModel (.pack (.add .binary64 z.toModel.unpack x.toModel.unpack)) := rfl
      _ = Float.ofModel (.pack x.toModel.unpack) := by
        rw [hs]
        cases hu : x.toModel.unpack with
        | zero t => exact absurd (isZero_iff.2 ⟨t, hu⟩) hx
        | notANumber => rfl
        | infinity t => rfl
        | finite t m q hm => rfl
      _ = x := pack_unpack x

theorem zero_sub (hz : IsZero z) (x : Float) : SameNumber (z - x) (-x) := by
  by_cases hx : IsZero x
  · exact .inr ⟨hz.sub hx, hx.neg⟩
  · obtain ⟨s, hs⟩ := isZero_iff.1 hz
    refine .inl ?_
    calc z - x = Float.ofModel (.pack (.sub .binary64 z.toModel.unpack x.toModel.unpack)) := rfl
      _ = Float.ofModel (.pack x.toModel.unpack.neg) := by
        rw [hs]
        cases hu : x.toModel.unpack with
        | zero t => exact absurd (isZero_iff.2 ⟨t, hu⟩) hx
        | notANumber => rfl
        | infinity t => rfl
        | finite t m q hm => rfl
      _ = -x := rfl

end SameNumber

/-! ## The sign of a literal -/

theorem ofModel_pack_neg (u : UnpackedFloat) : Float.ofModel (.pack u.neg) = -Float.ofModel (.pack u) := by
  have hpack : UnpackedFloat.pack .binary64 (UnpackedFloat.unpack .binary64 (UnpackedFloat.pack .binary64 u.neg)) =
      UnpackedFloat.pack .binary64 u.neg := UnpackedFloat.pack_unpack_of_valid UnpackedFloat.valid_pack
  rw [unpack_pack_neg] at hpack
  rw [← Float.toBits_inj, ← UInt64.toBitVec_inj]
  exact hpack.symm

theorem ofParts_true (m : Nat) (q : Int) : ofParts true m q = -ofParts false m q := by
  unfold ofParts
  rw [← ofModel_pack_neg]
  split <;> rfl

theorem infinite_true : infinite true = -infinite false :=
  ofModel_pack_neg (.infinity (signOf false))

theorem ofDigits_true (ds : List Char) (e : Int) : ofDigits true ds e = -ofDigits false ds e := by
  unfold ofDigits
  dsimp only
  split
  · exact ofParts_true 0 0
  · split
    · exact infinite_true
    · exact ofParts_true _ _

section

variable {c : Char} (hc : isDigit c = true) (cs : List Char)

include hc

theorem ofText_plus : ofText ('+' :: c :: cs) = ofText (c :: cs) := by
  have hsign : readSign (c :: cs) = readSign ('+' :: c :: cs) := readSign_of_isDigit hc cs
  simp only [ofText, ofLiteral, hsign]

theorem ofText_minus : ofText ('-' :: c :: cs) = (ofText (c :: cs)).map (- ·) := by
  obtain ⟨whole, fraction, rest, hdigits, hwhole⟩ : ∃ whole fraction rest,
      readDigits (c :: cs) = (whole, fraction, rest) ∧ whole ≠ [] := by
    refine ⟨_, _, _, rfl, ?_⟩
    split <;> simp [hc]
  have hnegative : readSign ('-' :: c :: cs) = (true, c :: cs) := rfl
  rw [ofText, ofText, ofLiteral_of_isDigit hc (readSign_of_isDigit hc cs) hdigits hwhole,
    ofLiteral_of_isDigit hc hnegative hdigits hwhole]
  cases readExponent rest with
  | none => rfl
  | some e =>
    rw [Option.map_some, Option.map_some, Option.filter_some, Option.filter_some, ofDigits_true, isFinite_neg]
    split <;> rfl

end

/-- Without a digit or a point after the sign there is no finite number. -/
theorem ofText_minus_of_head {cs : List Char} (hhead : ∀ c ∈ cs.head?, isDigit c = false ∧ c ≠ '.') :
    ofText ('-' :: cs) = none := by
  have hdigits : readDigits cs = ([], [], cs) := by
    cases cs with
    | nil => rfl
    | cons c cs =>
      have hnone : ∀ d ∈ ([] : List Char), isDigit d = true := nofun
      exact readDigits_append hnone hhead
  simp only [ofText, ofLiteral, readSign, hdigits]
  split
  · rfl
  · split <;> rfl

end Spreadsheet.Number

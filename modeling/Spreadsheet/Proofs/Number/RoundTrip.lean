import Spreadsheet.Number.Show
import Spreadsheet.Proofs.Number.Double
import Spreadsheet.Proofs.Number.Literal

/-
  Numbers read back.

  The decimal that is written for a double is one whose nearest double it is,
  and a text in positional notation is read as the decimal it was written for,
  so every finite double is read back from its text. In a cell the sign of zero
  is lost; so of the number that the text of a cell denotes it is said that it
  has the same text (`denotes_cellText`).
-/

namespace Spreadsheet

namespace Number

open Text (isDigit natOfDigits)

variable {m : Nat} {q : Int} {negative : Bool}

/-! ## The value of a decimal -/

namespace Decimal

/-- The number that a decimal stands for. -/
def value (d : Decimal) : ℚ := d.coefficient * 10 ^ d.exponent

theorem den_pos (d : Decimal) : 0 < d.den := Nat.pow_pos (by decide)

theorem num_div_den (d : Decimal) : (d.num : ℚ) / d.den = d.value := by
  have hpow : (10 : ℚ) ^ d.exponent = 10 ^ d.exponent.toNat / 10 ^ (-d.exponent).toNat := by
    rw [← zpow_natCast, ← zpow_natCast, ← zpow_sub₀ (by norm_num)]
    congr 1
    omega
  have hnum : (d.num : ℚ) = d.coefficient * 10 ^ d.exponent.toNat := by
    exact_mod_cast rfl
  have hden : (d.den : ℚ) = 10 ^ (-d.exponent).toNat := by
    exact_mod_cast rfl
  rw [value, hpow, hnum, hden, mul_div_assoc]

theorem num_pos {d : Decimal} (h : 0 < d.coefficient) : 0 < d.num :=
  Nat.mul_pos h (Nat.pow_pos (by decide))

theorem nearestParts_congr {d d' : Decimal} (h : 0 < d.coefficient) (hvalue : d.value = d'.value) :
    d.nearestParts = d'.nearestParts :=
  Number.nearestParts_congr (num_pos h) d.den_pos d'.den_pos (by rw [num_div_den, num_div_den, hvalue])

theorem coefficient_pos {d : Decimal} (h : IsDouble m q) (hd : d.nearestParts = (m, q)) :
    0 < d.coefficient := by
  rw [Nat.pos_iff_ne_zero]
  intro hzero
  have hnum : d.num = 0 := by rw [num, hzero, Nat.zero_mul]
  rw [nearestParts, hnum] at hd
  have hm := nearestParts_zero d.den
  rw [hd] at hm
  exact h.pos.ne' hm

end Decimal

theorem IsDouble.nearestParts_of_value {d : Decimal} (h : IsDouble m q) (hd : d.value = m * 2 ^ q) :
    d.nearestParts = (m, q) :=
  h.nearestParts_eq d.den_pos (by rw [d.num_div_den, hd])

/-- The decimal that is written for a double reads back as it. -/
theorem IsDouble.nearestParts_shortest (h : IsDouble m q) : (shortest m q).nearestParts = (m, q) := by
  delta shortest
  dsimp only
  generalize List.range 17 = places
  split
  · rename_i d hd
    obtain ⟨n, -, hn⟩ := List.exists_of_findSome?_eq_some hd
    exact nearestParts_of_neighbour? hn
  · -- the exact value, whatever its length
    refine h.nearestParts_of_value ?_
    rw [Decimal.value, two_zpow_eq, Nat.shiftLeft_eq]
    have hten : (10 : ℚ) ^ min q 0 = ((2 : ℚ) ^ (-q).toNat * 5 ^ (-q).toNat)⁻¹ := by
      rw [show min q 0 = -((-q).toNat : Int) by omega, zpow_neg, zpow_natCast, ← mul_pow]
      norm_num
    have hfive : ((m * 2 ^ q.toNat * Nat.pow 5 (-q).toNat : Nat) : ℚ) = m * 2 ^ q.toNat * 5 ^ (-q).toNat := by
      exact_mod_cast rfl
    dsimp only
    rw [hten, hfive]
    field_simp

/-! ## Reading digits -/

theorem two_zpow_le_ten_zpow : (2 : ℚ) ^ (1200 : Int) ≤ 10 ^ (400 : Int) :=
  calc (2 : ℚ) ^ (1200 : Int) = (2 ^ 3) ^ 400 := by rw [← pow_mul, ← zpow_natCast]; rfl
    _ ≤ 10 ^ 400 := by gcongr; norm_num
    _ = 10 ^ (400 : Int) := (zpow_natCast _ _).symm

theorem Decimal.value_lt {d : Decimal} {l : Nat} (h : d.coefficient < 10 ^ l) :
    d.value < 10 ^ (d.exponent + l) := by
  rw [value, zpow_add₀ (by norm_num), mul_comm, zpow_natCast]
  have : (d.coefficient : ℚ) < 10 ^ l := by exact_mod_cast h
  gcongr

theorem Decimal.le_value {d : Decimal} {l : Nat} (h : 10 ^ l ≤ d.coefficient) :
    10 ^ (d.exponent + l) ≤ d.value := by
  rw [value, zpow_add₀ (by norm_num), mul_comm (d.coefficient : ℚ), zpow_natCast]
  have : (10 : ℚ) ^ l ≤ d.coefficient := by exact_mod_cast h
  gcongr

/-- Digits of which a double is the nearest one are read as it: their number is
in the range where the digits are looked at. -/
theorem ofDigits_eq {ds : List Char} {e : Int} (h : IsDouble m q) (hds : ∀ c ∈ ds, isDigit c = true)
    (hd : Decimal.nearestParts ⟨natOfDigits ds, e⟩ = (m, q)) : ofDigits negative ds e = ofParts negative m q := by
  have hpos : 0 < natOfDigits ds := Decimal.coefficient_pos h hd
  obtain ⟨hlow, hhigh⟩ := Text.length_digits hpos
  have hlength : 0 < (Text.digits (natOfDigits ds)).length := List.length_pos_iff.2 (Text.digits_ne_nil _)
  rw [Text.digits_natOfDigits hds hpos] at hlow hhigh hlength
  have hnum : 0 < Decimal.num ⟨natOfDigits ds, e⟩ := Decimal.num_pos hpos
  have hden := Decimal.den_pos ⟨natOfDigits ds, e⟩
  have hbase : (1 : ℚ) ≤ 10 := by norm_num
  have hparts := hd
  rw [Decimal.nearestParts] at hparts
  generalize hl : (ds.dropWhile (· == '0')).length = l at hlow hhigh hlength
  -- outside of the range the nearest double would be zero, or none
  have hvalue : (Decimal.num ⟨natOfDigits ds, e⟩ : ℚ) / Decimal.den ⟨natOfDigits ds, e⟩ =
      Decimal.value ⟨natOfDigits ds, e⟩ := Decimal.num_div_den ⟨natOfDigits ds, e⟩
  have hsmall : ¬ e + l < -400 := by
    intro hlt
    have hbound : Decimal.value ⟨natOfDigits ds, e⟩ < 2 ^ (-1075 : Int) :=
      calc Decimal.value ⟨natOfDigits ds, e⟩ < (10 : ℚ) ^ (e + l) := Decimal.value_lt hhigh
        _ ≤ 10 ^ (-400 : Int) := zpow_le_zpow_right₀ hbase hlt.le
        _ ≤ 2 ^ (-1200 : Int) := by
          rw [zpow_neg, zpow_neg]
          exact inv_anti₀ (two_zpow_pos _) two_zpow_le_ten_zpow
        _ ≤ 2 ^ (-1075 : Int) := zpow_le_zpow_right₀ (by norm_num) (by norm_num)
    have hm := nearestParts_of_lt hnum hden (hvalue ▸ hbound)
    rw [hparts] at hm
    exact h.pos.ne' hm
  have hlarge : ¬ 400 < e + l := by
    intro hlt
    have hbound : (2 : ℚ) ^ (1024 : Int) ≤ Decimal.value ⟨natOfDigits ds, e⟩ :=
      calc (2 : ℚ) ^ (1024 : Int) ≤ 2 ^ (1200 : Int) := zpow_le_zpow_right₀ (by norm_num) (by norm_num)
        _ ≤ 10 ^ (400 : Int) := two_zpow_le_ten_zpow
        _ ≤ 10 ^ (e + (l - 1 : Nat)) := zpow_le_zpow_right₀ hbase (by omega)
        _ ≤ Decimal.value ⟨natOfDigits ds, e⟩ := Decimal.le_value (d := ⟨natOfDigits ds, e⟩) hlow
    have hq := lt_nearestParts_of_le hnum hden (hvalue ▸ hbound)
    rw [hparts] at hq
    exact absurd h.le_greatest (not_le.2 hq)
  simp only [ofDigits, hl, hpos.ne', hsmall, hlarge, hd]
  rfl

/-! ## Positional notation -/

/-- Whether a text is in positional notation, with the given digits before and
after the point. There is no point if there are no digits after it. -/
structure IsPositional (text whole fraction : List Char) : Prop where
  text_eq : text = if fraction = [] then whole else whole ++ '.' :: fraction
  whole_ne_nil : whole ≠ []
  isDigit : ∀ c ∈ whole ++ fraction, isDigit c = true

namespace IsPositional

variable {text whole fraction : List Char}

theorem of_digits (hwhole : whole ≠ []) (h : ∀ c ∈ whole, Text.isDigit c = true) : IsPositional whole whole [] where
  text_eq := rfl
  whole_ne_nil := hwhole
  isDigit := by rwa [List.append_nil]

theorem of_point (hwhole : whole ≠ []) (hfraction : fraction ≠ [])
    (h : ∀ c ∈ whole ++ fraction, Text.isDigit c = true) : IsPositional (whole ++ '.' :: fraction) whole fraction where
  text_eq := (if_neg hfraction).symm
  whole_ne_nil := hwhole
  isDigit := h

theorem isDigit_whole (h : IsPositional text whole fraction) : ∀ c ∈ whole, Text.isDigit c = true :=
  fun c hc => h.isDigit c (List.mem_append_left _ hc)

theorem isDigit_fraction (h : IsPositional text whole fraction) : ∀ c ∈ fraction, Text.isDigit c = true :=
  fun c hc => h.isDigit c (List.mem_append_right _ hc)

theorem exists_cons (h : IsPositional text whole fraction) :
    ∃ c cs, text = c :: cs ∧ Text.isDigit c = true := by
  obtain ⟨c, cs, rfl⟩ := List.exists_cons_of_ne_nil h.whole_ne_nil
  refine ⟨c, if fraction = [] then cs else cs ++ '.' :: fraction, ?_, h.isDigit_whole c List.mem_cons_self⟩
  rw [h.text_eq]
  split <;> rfl

theorem isDigit_or_point (h : IsPositional text whole fraction) : ∀ c ∈ text, Text.isDigit c = true ∨ c = '.' := by
  intro c hc
  rw [h.text_eq] at hc
  split at hc
  · exact .inl (h.isDigit_whole c hc)
  · rcases List.mem_append.1 hc with hc | hc
    · exact .inl (h.isDigit_whole c hc)
    · rcases List.mem_cons.1 hc with rfl | hc
      · exact .inr rfl
      · exact .inl (h.isDigit_fraction c hc)

theorem readDigits_append (h : IsPositional text whole fraction) {rest : List Char}
    (hrest : ∀ c ∈ rest.head?, Text.isDigit c = false ∧ c ≠ '.') :
    readDigits (text ++ rest) = (whole, fraction, rest) := by
  rw [h.text_eq]
  split
  · rename_i hnil
    rw [hnil]
    exact Number.readDigits_append h.isDigit_whole hrest
  · rw [List.append_assoc, List.cons_append]
    exact readDigits_append_point h.isDigit_whole h.isDigit_fraction fun c hc => (hrest c hc).1

theorem readDigits (h : IsPositional text whole fraction) : readDigits text = (whole, fraction, []) := by
  have hread : Number.readDigits (text ++ []) = _ := h.readDigits_append nofun
  rwa [List.append_nil] at hread

theorem ofLiteral_signed (h : IsPositional text whole fraction) (negative : Bool) :
    ofLiteral (signed (signOf negative) text) = some (ofDigits negative (whole ++ fraction) (-fraction.length)) := by
  have hdigits := h.readDigits
  obtain ⟨c, cs, rfl, hc⟩ := h.exists_cons
  have hsign : readSign (signed (signOf negative) (c :: cs)) = (negative, c :: cs) := by
    cases negative with
    | true => rfl
    | false => exact readSign_of_isDigit hc cs
  rw [ofLiteral_of_isDigit hc hsign hdigits h.whole_ne_nil]
  simp [readExponent]

end IsPositional

/-- Writing digits with a power of ten keeps their value. -/
theorem placed_isPositional {ds : List Char} (hds : ∀ c ∈ ds, isDigit c = true) (hne : ds ≠ []) (e : Int) :
    ∃ whole fraction, IsPositional (placed ds e) whole fraction ∧
      Decimal.value ⟨natOfDigits (whole ++ fraction), -fraction.length⟩ = Decimal.value ⟨natOfDigits ds, e⟩ := by
  have hlength := List.length_pos_iff.2 hne
  unfold placed
  dsimp only
  split
  · -- zeros after the digits
    rename_i he
    have hdigits : ∀ c ∈ ds ++ List.replicate e.toNat '0', isDigit c = true :=
      List.forall_mem_append.2 ⟨hds, fun c hc => Text.isDigit_of_mem_replicate hc⟩
    have hpow : (10 : ℚ) ^ e = 10 ^ e.toNat := by
      rw [← zpow_natCast, Int.toNat_of_nonneg he]
    refine ⟨ds ++ List.replicate e.toNat '0', [], .of_digits (List.append_ne_nil_of_left_ne_nil hne _) hdigits, ?_⟩
    simp [Decimal.value, Text.natOfDigits_append, Text.natOfDigits_replicate_zero, hpow]
  · split
    · -- a point among them
      rename_i he hlt
      have hwhole : ds.take (ds.length - (-e).toNat) ≠ [] := by
        rw [Ne, List.take_eq_nil_iff, not_or]
        exact ⟨by omega, hne⟩
      have hfraction : (ds.drop (ds.length - (-e).toNat)).length = (-e).toNat := by
        rw [List.length_drop]
        omega
      refine ⟨_, _, .of_point hwhole (List.ne_nil_of_length_pos (by omega)) (by rwa [List.take_append_drop]), ?_⟩
      rw [List.take_append_drop, hfraction, Int.toNat_of_nonneg (by omega), Int.neg_neg]
    · -- a point and zeros before them
      rename_i he hlt
      have hzeros : ∀ c ∈ List.replicate ((-e).toNat - ds.length) '0', isDigit c = true := fun c hc =>
        Text.isDigit_of_mem_replicate hc
      have hdigits : ∀ c ∈ ['0'] ++ (List.replicate ((-e).toNat - ds.length) '0' ++ ds), isDigit c = true :=
        List.forall_mem_append.2 ⟨List.forall_mem_singleton.2 rfl, List.forall_mem_append.2 ⟨hzeros, hds⟩⟩
      have hfraction : (List.replicate ((-e).toNat - ds.length) '0' ++ ds).length = (-e).toNat := by
        rw [List.length_append, List.length_replicate]
        omega
      have hzero : natOfDigits ['0'] = 0 := rfl
      refine ⟨['0'], _, .of_point (List.cons_ne_nil _ _) (List.append_ne_nil_of_right_ne_nil _ hne) hdigits, ?_⟩
      rw [Text.natOfDigits_append, Text.natOfDigits_append, Text.natOfDigits_replicate_zero, hzero, hfraction,
        Nat.zero_mul, Nat.zero_mul, Nat.zero_add, Nat.zero_add, Int.toNat_of_nonneg (by omega), Int.neg_neg]

/-- So does leaving out the zeros at the end. -/
theorem positional_isPositional {d : Decimal} (h : 0 < d.coefficient) :
    ∃ whole fraction, IsPositional d.positional whole fraction ∧
      Decimal.value ⟨natOfDigits (whole ++ fraction), -fraction.length⟩ = d.value := by
  have hsplit := Text.dropEndWhile_append (· == '0') (Text.digits d.coefficient)
  unfold Decimal.positional
  dsimp only
  -- the digits are those that are kept and then zeros
  generalize hkept : Text.dropEndWhile (· == '0') (Text.digits d.coefficient) = kept at hsplit ⊢
  generalize hzeros : ((Text.digits d.coefficient).reverse.takeWhile (· == '0')).reverse = zeros at hsplit
  have hreplicate : zeros = List.replicate zeros.length '0' := by
    refine List.eq_replicate_of_mem fun c hc => ?_
    rw [← hzeros, List.mem_reverse] at hc
    simpa using List.mem_takeWhile_imp hc
  have hlength : (Text.digits d.coefficient).length - kept.length = zeros.length := by
    rw [← hsplit, List.length_append, Nat.add_sub_cancel_left]
  have hvalue : d.coefficient = natOfDigits kept * 10 ^ zeros.length := by
    have hread := Text.natOfDigits_digits d.coefficient
    rw [← hsplit, Text.natOfDigits_append, hreplicate, Text.natOfDigits_replicate_zero, List.length_replicate] at hread
    exact hread.symm
  have hdigits : ∀ c ∈ kept, isDigit c = true := by
    intro c hc
    refine Text.isDigit_of_mem_digits (n := d.coefficient) ?_
    rw [← hsplit]
    exact List.mem_append_left _ hc
  have hne : kept ≠ [] := by
    rintro rfl
    rw [hvalue, show natOfDigits [] = 0 from rfl, Nat.zero_mul] at h
    exact absurd h (Nat.lt_irrefl 0)
  obtain ⟨whole, fraction, hpositional, hsame⟩ := placed_isPositional hdigits hne (d.exponent + (zeros.length : Nat))
  rw [hlength]
  refine ⟨whole, fraction, hpositional, hsame.trans ?_⟩
  rw [Decimal.value, Decimal.value, zpow_add₀ (by norm_num), zpow_natCast, hvalue]
  push_cast
  ring

/-! ## The text of a number -/

/-- Whether a text is positional notation with its sign, and denotes the
number. -/
def Denotes (text : List Char) (x : Float) : Prop :=
  ∃ negative body whole fraction, text = signed (signOf negative) body ∧
    IsPositional body whole fraction ∧ ofLiteral text = some x

variable {text : List Char} {x : Float}

namespace Denotes

theorem isDigit_or (h : Denotes text x) : ∀ c ∈ text, isDigit c = true ∨ c = '.' ∨ c = '-' := by
  obtain ⟨negative, body, whole, fraction, rfl, hbody, -⟩ := h
  intro c hc
  cases negative with
  | false => exact (hbody.isDigit_or_point c hc).imp_right .inl
  | true =>
    rcases List.mem_cons.1 hc with rfl | hc
    · exact .inr (.inr rfl)
    · exact (hbody.isDigit_or_point c hc).imp_right .inl

theorem ne_nil (h : Denotes text x) : text ≠ [] := by
  obtain ⟨negative, body, whole, fraction, rfl, hbody, -⟩ := h
  obtain ⟨c, cs, rfl, -⟩ := hbody.exists_cons
  cases negative <;> exact List.cons_ne_nil _ _

theorem ofText (h : Denotes text x) (hx : x.isFinite = true) : ofText text = some x := by
  obtain ⟨negative, body, whole, fraction, -, -, hread⟩ := h
  rw [Number.ofText, hread, Option.filter_some, if_pos hx]

end Denotes

section

variable {hm : 0 < m} (hx : x.toModel.unpack = .finite (signOf negative) m q hm)

include hx

theorem denotes_of_value {body whole fraction : List Char} (hbody : IsPositional body whole fraction)
    (hparts : Decimal.nearestParts ⟨natOfDigits (whole ++ fraction), -fraction.length⟩ = (m, q)) :
    Denotes (signed (signOf negative) body) x := by
  refine ⟨negative, body, whole, fraction, rfl, hbody, ?_⟩
  rw [hbody.ofLiteral_signed, ofDigits_eq (isDouble_of_unpack hx) hbody.isDigit hparts, ofParts_of_unpack hx]

theorem denotes_exactText : Denotes (exactText x) x := by
  have h := isDouble_of_unpack hx
  have hshortest := h.nearestParts_shortest
  have hpos := Decimal.coefficient_pos h hshortest
  obtain ⟨whole, fraction, hbody, hvalue⟩ := positional_isPositional hpos
  have htext : exactText x = signed (signOf negative) (shortest m q).positional := by
    unfold exactText
    rw [hx]
  rw [htext]
  refine denotes_of_value hx hbody ?_
  rw [← hshortest]
  exact (Decimal.nearestParts_congr hpos hvalue.symm).symm

theorem denotes_integerText {n : Int} (hn : whole? x = some n) : Denotes (integerText n) x := by
  have h := isDouble_of_unpack hx
  unfold whole? at hn
  rw [hx] at hn
  dsimp only at hn
  split at hn
  · rename_i hdvd
    cases hn
    generalize hsize : (m <<< q.toNat) >>> (-q).toNat = size
    have hvalue : (size : ℚ) = m * 2 ^ q := by
      have hdvd : 1 <<< (-q).toNat ∣ m <<< q.toNat := by
        rw [Nat.shiftLeft_eq m]
        exact (Nat.dvd_of_mod_eq_zero hdvd).mul_right _
      have hden : ((1 <<< (-q).toNat : Nat) : ℚ) ≠ 0 := by
        rw [Nat.shiftLeft_eq]
        positivity
      rw [← parts_div, eq_div_iff hden, ← hsize, Nat.shiftRight_eq_div_pow, ← Nat.one_shiftLeft]
      exact_mod_cast Nat.div_mul_cancel hdvd
    have hsize : 0 < size := by
      have hpos : (0 : ℚ) < size := by
        rw [hvalue]
        exact mul_pos (by exact_mod_cast hm) (two_zpow_pos q)
      exact_mod_cast hpos
    have htext : integerText (withSign (signOf negative) size) = signed (signOf negative) (Text.digits size) := by
      cases negative with
      | false => simp [integerText, withSign, signOf, signed]
      | true => simp [integerText, withSign, signOf, signed, hsize]
    rw [htext]
    have hbody : IsPositional (Text.digits size) (Text.digits size) [] :=
      ⟨rfl, Text.digits_ne_nil _, by simpa using fun c hc => Text.isDigit_of_mem_digits hc⟩
    refine denotes_of_value hx hbody ?_
    refine h.nearestParts_of_value ?_
    simp [Decimal.value, hvalue]
  · cases hn

end

theorem cellText_of_zero (h : x.toModel.unpack = .zero (signOf negative)) : cellText x = ['0'] := by
  have hwhole : whole? x = some 0 := by
    unfold whole?
    rw [h]
  have hnumeral : integerText 0 = ['0'] := by
    simp [integerText, Text.digits, Text.digitChar]
  unfold cellText
  rw [hwhole]
  exact (if_pos (by decide)).trans hnumeral

theorem denotes_zero : Denotes ['0'] (ofParts false 0 0) := by
  have hdigit : ∀ c ∈ ['0'] ++ [], isDigit c = true := by
    rintro c (_ | ⟨_, hc⟩)
    · rfl
    · cases hc
  have hbody : IsPositional ['0'] ['0'] [] := ⟨rfl, List.cons_ne_nil _ _, hdigit⟩
  exact ⟨false, ['0'], ['0'], [], rfl, hbody, hbody.ofLiteral_signed false⟩

/-- The text that a cell shows for a number is a number with the same text. -/
theorem denotes_cellText (hx : x.isFinite = true) :
    ∃ y, Denotes (cellText x) y ∧ y.isFinite = true ∧ cellText y = cellText x := by
  rcases unpack_of_isFinite hx with ⟨negative, hzero⟩ | ⟨negative, m, q, hm, hfinite⟩
  · have hplain := unpack_ofParts_zero false 0
    refine ⟨ofParts false 0 0, ?_, congrArg Float.Model.UnpackedFloat.isFinite hplain, ?_⟩
    · rw [cellText_of_zero hzero]
      exact denotes_zero
    · rw [cellText_of_zero hzero, cellText_of_zero hplain]
  · refine ⟨x, ?_, hx, rfl⟩
    unfold cellText
    split
    · rename_i n hn
      split
      · exact denotes_integerText hfinite hn
      · exact denotes_exactText hfinite
    · exact denotes_exactText hfinite

end Number

end Spreadsheet

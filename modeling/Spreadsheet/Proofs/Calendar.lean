import Spreadsheet.Cell.Value
import Spreadsheet.Proofs.Number.Literal

/-
  Dates read back.

  A date is read back from its text (`ofText?_text`), whatever the length and
  the sign of its year, and no such text is a number or a truth value: after the
  digits of the year there is a hyphen.
-/

namespace Spreadsheet.Date

open Text (isDigit natOfDigits paddedDigits trimStart)

/-! ## Reading the parts -/

/-- Digits are read up to the first other character, if they are not too many. -/
theorem readNumber_append {width : Option Nat} {ds rest : List Char} (hds : ∀ c ∈ ds, isDigit c = true)
    (hne : ds ≠ []) (hrest : ∀ c ∈ rest.head?, isDigit c = false) (hwidth : ∀ n ∈ width, ds.length ≤ n) :
    readNumber width (ds ++ rest) = some (natOfDigits ds, rest) := by
  obtain ⟨htake, -⟩ := Text.split_append hds hrest
  cases width with
  | none => simp [readNumber, htake, hne]
  | some n => simp [readNumber, htake, hne, List.take_of_length_le (hwidth n rfl)]

theorem trimStart_paddedDigits (width n : Nat) (rest : List Char) :
    trimStart (paddedDigits width n ++ rest) = paddedDigits width n ++ rest := by
  obtain ⟨c, cs, hcs, hc⟩ := Text.exists_cons_paddedDigits width n
  rw [hcs, List.cons_append]
  exact Text.trimStart_eq_self fun d hd => Option.some.inj hd ▸ Text.isBlank_of_isDigit hc

theorem readPart_paddedDigits {n : Nat} (h : n < 100) {rest : List Char}
    (hrest : ∀ c ∈ rest.head?, isDigit c = false) :
    readPart ('-' :: (paddedDigits 2 n ++ rest)) = some (n, rest) := by
  rw [readPart, trimStart_paddedDigits,
    readNumber_append (fun c hc => Text.isDigit_of_mem_paddedDigits hc) (Text.paddedDigits_ne_nil 2 n) hrest
      (by rintro _ ⟨⟩; exact (Text.length_paddedDigits h (by decide)).le),
    Text.natOfDigits_paddedDigits]

/-! ## The year -/

def yearSign (year : Int) : List Char :=
  if 0 ≤ year && year ≤ 9999 then [] else if year < 0 then ['-'] else ['+']

theorem yearText_eq (year : Int) : yearText year = yearSign year ++ paddedDigits 4 year.natAbs := by
  unfold yearText yearSign
  split
  · rfl
  · split <;> rfl

theorem readYear_yearText (year : Int) {rest : List Char} (hrest : ∀ c ∈ rest.head?, isDigit c = false) :
    readYear (yearText year ++ rest) = some (year, rest) := by
  have hread (width : Option Nat) (hwidth : ∀ n ∈ width, (paddedDigits 4 year.natAbs).length ≤ n) :
      readNumber width (paddedDigits 4 year.natAbs ++ rest) = some (year.natAbs, rest) := by
    rw [readNumber_append (fun c hc => Text.isDigit_of_mem_paddedDigits hc) (Text.paddedDigits_ne_nil _ _) hrest
      hwidth, Text.natOfDigits_paddedDigits]
  rw [yearText_eq, yearSign]
  split
  · -- a year without a sign is read in four digits, and it has no more
    rename_i hyear
    simp only [Bool.and_eq_true, decide_eq_true_eq] at hyear
    rw [List.nil_append, readYear, trimStart_paddedDigits]
    obtain ⟨c, cs, hcs, hc⟩ := Text.exists_cons_paddedDigits 4 year.natAbs
    have hfour : (paddedDigits 4 year.natAbs).length = 4 := Text.length_paddedDigits (by omega) (by decide)
    have hnumber := hread (some 4) (by rintro _ ⟨⟩; exact hfour.le)
    rw [hcs, List.cons_append] at hnumber ⊢
    split
    · rename_i heq
      cases heq
      cases hc
    · rename_i heq
      cases heq
      cases hc
    · simp only [hnumber, Option.map_some]
      congr 2
      omega
  · split
    · rename_i hneg
      have htrim : ∀ cs, trimStart ('-' :: cs) = '-' :: cs := fun _ => rfl
      rw [List.cons_append, List.nil_append, List.cons_append, readYear, htrim]
      simp only [hread none nofun, Option.map_some]
      congr 2
      omega
    · rename_i hneg
      have htrim : ∀ cs, trimStart ('+' :: cs) = '+' :: cs := fun _ => rfl
      rw [List.cons_append, List.nil_append, List.cons_append, readYear, htrim]
      simp only [hread none nofun, Option.map_some]
      congr 2
      omega

/-! ## Dates -/

theorem daysInMonth_le (year : Int) (month : Nat) : daysInMonth year month ≤ 31 := by
  have hfebruary : (if isLeapYear year then 29 else 28) ≤ 31 := by
    split <;> omega
  unfold daysInMonth
  split
  all_goals omega

theorem month_le_of_daysInMonth {year : Int} {month : Nat} (h : 0 < daysInMonth year month) : month ≤ 12 := by
  unfold daysInMonth at h
  split at h
  all_goals omega

theorem parts_lt (d : Date) : d.month < 100 ∧ d.day < 100 := by
  have h := d.exists_day
  simp only [isDay, Bool.and_eq_true, decide_eq_true_eq] at h
  obtain ⟨⟨-, hpos⟩, hle⟩ := h
  have hdays := daysInMonth_le d.year d.month
  have hmonth := month_le_of_daysInMonth (Nat.lt_of_lt_of_le hpos hle)
  omega

theorem ofText?_text (d : Date) : ofText? d.text = some d := by
  obtain ⟨hmonth, hday⟩ := d.parts_lt
  have hhyphen : ∀ (cs : List Char), ∀ c ∈ ('-' :: cs).head?, isDigit c = false := by
    rintro cs _ ⟨⟩
    rfl
  have hend : readPart ('-' :: paddedDigits 2 d.day) = some (d.day, []) := by
    have hend : ∀ c ∈ ([] : List Char).head?, isDigit c = false := nofun
    simpa using readPart_paddedDigits hday hend
  have hnumbers : ofNumbers? d.year d.month d.day = some d := dif_pos d.exists_day
  rw [text, List.append_assoc, List.cons_append, ofText?, readYear_yearText d.year (hhyphen _)]
  simp only [Option.bind_eq_bind, Option.bind_some]
  rw [readPart_paddedDigits hmonth (hhyphen _)]
  simp only [Option.bind_some, hend]
  exact hnumbers

/-! ## What a date is not -/

theorem text_eq (d : Date) :
    ∃ rest, d.text = yearSign d.year ++ (paddedDigits 4 d.year.natAbs ++ '-' :: rest) := by
  refine ⟨paddedDigits 2 d.month ++ '-' :: paddedDigits 2 d.day, ?_⟩
  rw [text, yearText_eq, List.append_assoc, List.append_assoc, List.cons_append]

theorem yearSign_cases (year : Int) : yearSign year = [] ∨ yearSign year = ['-'] ∨ yearSign year = ['+'] := by
  unfold yearSign
  split
  · exact .inl rfl
  · split
    · exact .inr (.inl rfl)
    · exact .inr (.inr rfl)

theorem readSign_text (d : Date) :
    ∃ negative rest, Number.readSign d.text = (negative, paddedDigits 4 d.year.natAbs ++ '-' :: rest) := by
  obtain ⟨rest, hrest⟩ := d.text_eq
  rw [hrest]
  rcases yearSign_cases d.year with hsign | hsign | hsign
  · obtain ⟨c, cs, hcs, hc⟩ := Text.exists_cons_paddedDigits 4 d.year.natAbs
    refine ⟨false, rest, ?_⟩
    rw [hsign, List.nil_append, hcs, List.cons_append]
    exact Number.readSign_of_isDigit hc _
  · rw [hsign]
    exact ⟨true, rest, rfl⟩
  · rw [hsign]
    exact ⟨false, rest, rfl⟩

/-- No date is a number. -/
theorem ofText_text (d : Date) : Number.ofText d.text = none := by
  obtain ⟨negative, rest, hsign⟩ := d.readSign_text
  have hdigits : Number.readDigits (paddedDigits 4 d.year.natAbs ++ '-' :: rest) =
      (paddedDigits 4 d.year.natAbs, [], '-' :: rest) :=
    Number.readDigits_append (fun _ hc => Text.isDigit_of_mem_paddedDigits hc) (by rintro _ ⟨⟩; decide)
  -- the hyphen ends the digits, and no exponent starts with it
  have hexponent : Number.readExponent ('-' :: rest) = none := by
    simp [Number.readExponent, Number.isExponentMark]
  obtain ⟨c, cs, hcs, hc⟩ := Text.exists_cons_paddedDigits 4 d.year.natAbs
  rw [hcs, List.cons_append] at hsign hdigits
  rw [Number.ofText, Number.ofLiteral_of_isDigit hc hsign hdigits (List.cons_ne_nil c cs), hexponent]
  rfl

theorem text_ne_nil (d : Date) : d.text ≠ [] := by
  rw [text]
  exact List.append_ne_nil_of_right_ne_nil _ (List.cons_ne_nil _ _)

theorem isDigit_or_of_mem_text {d : Date} {c : Char} (h : c ∈ d.text) :
    isDigit c = true ∨ c = '-' ∨ c = '+' := by
  simp only [text, yearText_eq, List.append_assoc, List.cons_append, List.mem_append, List.mem_cons] at h
  rcases h with h | h | rfl | h | rfl | h
  · rcases yearSign_cases d.year with hsign | hsign | hsign
    · rw [hsign] at h
      cases h
    · rw [hsign, List.mem_singleton] at h
      exact .inr (.inl h)
    · rw [hsign, List.mem_singleton] at h
      exact .inr (.inr h)
  · exact .inl (Text.isDigit_of_mem_paddedDigits h)
  · exact .inr (.inl rfl)
  · exact .inl (Text.isDigit_of_mem_paddedDigits h)
  · exact .inr (.inl rfl)
  · exact .inl (Text.isDigit_of_mem_paddedDigits h)

theorem booleanOfText?_text (d : Date) : booleanOfText? d.text = none := by
  obtain ⟨c, cs, hcs⟩ := List.exists_cons_of_ne_nil d.text_ne_nil
  have hlt : c.toNat < 65 := by
    rcases isDigit_or_of_mem_text (hcs ▸ List.mem_cons_self) with hc | rfl | rfl
    · rw [Text.isDigit_iff] at hc
      omega
    · decide
    · decide
  have htrue : Text.spells "TRUE" (c :: cs) = false :=
    Text.spells_eq_false hlt cs (show Text.isCapital 'T' = true from rfl) ['R', 'U', 'E']
  have hfalse : Text.spells "FALSE" (c :: cs) = false :=
    Text.spells_eq_false hlt cs (show Text.isCapital 'F' = true from rfl) ['A', 'L', 'S', 'E']
  rw [hcs, booleanOfText?, htrue, hfalse]
  rfl

theorem trim_text (d : Date) : Text.trim d.text = d.text := by
  refine Text.trim_eq_self_of_forall fun c hc => ?_
  rcases isDigit_or_of_mem_text hc with hc | rfl | rfl
  · exact Text.isBlank_of_isDigit hc
  · decide
  · decide

theorem ofInput_text (d : Date) : CellValue.ofInput (String.ofList d.text) = .date d := by
  simp [CellValue.ofInput, d.trim_text, d.text_ne_nil, d.ofText_text, d.booleanOfText?_text, d.ofText?_text]

theorem ofNumbers?_eq_some_iff {year month day : Int} {d : Date} :
    ofNumbers? year month day = some d ↔ d.year = year ∧ (d.month : Int) = month ∧ (d.day : Int) = day := by
  unfold ofNumbers?
  constructor
  · intro h
    split at h
    · rename_i hday
      cases h
      simp only [isDay, Bool.and_eq_true, decide_eq_true_eq] at hday
      obtain ⟨⟨-, hpos⟩, hle⟩ := hday
      have hmonth : 0 < month.toNat := by
        rw [Nat.pos_iff_ne_zero]
        intro hzero
        rw [hzero] at hle
        exact absurd (Nat.le_trans hpos hle) (Nat.not_succ_le_zero 0)
      exact ⟨rfl, by dsimp only; omega, by dsimp only; omega⟩
    · cases h
  · rintro ⟨rfl, rfl, rfl⟩
    exact dif_pos d.exists_day

end Spreadsheet.Date

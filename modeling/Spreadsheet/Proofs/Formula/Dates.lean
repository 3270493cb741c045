import Spreadsheet.Proofs.Calendar
import Spreadsheet.Proofs.Formula.Limits
import Spreadsheet.Proofs.Formula.Signs
import Spreadsheet.Proofs.Formula.Tree
import Spreadsheet.Proofs.Number.Whole

/-
  Dates made by formulas.

  The three numbers of a date pass through doubles before there is a date, and
  the date becomes a text before a cell has it. Neither loses anything: integer
  literals are read exactly and truncated to themselves, and a cell reads the text
  of a date as this date. So the formula gives a text that a cell takes for the
  day with these numbers, and the empty text if there is no such day
  (`evaluate_date`).
-/

namespace Spreadsheet.Formula

open Text (isDigit natOfDigits)

/-- Whether a text is a decimal literal of an integer: digits, possibly with
zeros in front, and a minus before them if the integer is negative. -/
inductive IsInteger : List Char → Int → Prop
  | plain {ds : List Char} (hne : ds ≠ []) (hds : ∀ c ∈ ds, isDigit c = true) : IsInteger ds (natOfDigits ds)
  | minus {ds : List Char} (hne : ds ≠ []) (hds : ∀ c ∈ ds, isDigit c = true) :
    IsInteger ('-' :: ds) (-(natOfDigits ds : Int))

namespace IsInteger

variable {text : List Char} {z : Int}

theorem integerText (z : Int) : IsInteger (Number.integerText z) z := by
  have hread := Text.natOfDigits_digits z.natAbs
  have hds : ∀ c ∈ Text.digits z.natAbs, isDigit c = true := fun c hc => Text.isDigit_of_mem_digits hc
  unfold Number.integerText
  split
  · have hminus : IsInteger _ _ := .minus (Text.digits_ne_nil z.natAbs) hds
    rwa [hread, show -(z.natAbs : Int) = z by omega] at hminus
  · have hplain : IsInteger _ _ := .plain (Text.digits_ne_nil z.natAbs) hds
    rwa [hread, show (z.natAbs : Int) = z by omega] at hplain

theorem isDigit_or (h : IsInteger text z) : ∀ c ∈ text, isDigit c = true ∨ c = '-' := by
  cases h with
  | plain hne hds => exact fun c hc => .inl (hds c hc)
  | minus hne hds =>
    intro c hc
    rcases List.mem_cons.1 hc with rfl | hc
    · exact .inr rfl
    · exact .inl (hds c hc)

theorem ne_nil (h : IsInteger text z) : text ≠ [] := by
  cases h with
  | plain hne hds => exact hne
  | minus hne hds => exact List.cons_ne_nil _ _

theorem isPlain (h : IsInteger text z) : ∀ c ∈ text, IsPlain c := by
  intro c hc
  rcases h.isDigit_or c hc with hc | rfl
  · exact isPlain_of_isDigit hc
  · exact ⟨by decide, by decide, by decide, by decide⟩

theorem isBlank (h : IsInteger text z) : ∀ c ∈ text, Text.isBlank c = false := by
  intro c hc
  rcases h.isDigit_or c hc with hc | rfl
  · exact Text.isBlank_of_isDigit hc
  · decide

theorem exposesOnly (h : IsInteger text z) : ExposesOnly (· ≠ ',') text := by
  refine .of_forall fun c hc => ?_
  rcases h.isDigit_or c hc with hc | rfl
  · exact comma_notMem_of_isAtomChar (isAtomChar_iff.2 (.inr (.inl hc)))
  · decide

theorem levels (ctx : Context) (f : String → List Char → Run Value) (n : Nat) (h : IsInteger text z)
    (hz : z.natAbs < 2 ^ 53) :
    ∃ x, Formula.levels ctx f (n + 2) text = pure (.number x) ∧ Number.whole? x = some z := by
  -- without the sign it is an atom that starts with a digit
  have hnumber : ∀ {ds : List Char}, ds ≠ [] → (∀ c ∈ ds, isDigit c = true) → natOfDigits ds < 2 ^ 53 →
      Number.whole? (numberOf ds) = some (natOfDigits ds : Int) := by
    intro ds hne hds hlt
    obtain ⟨x, hx, hwhole⟩ := Number.ofText_of_digits hne hds hlt
    have hchars : ∀ c ∈ ds, Text.isBlank c = false ∧ c ≠ '$' ∧ c ≠ '%' ∧ c ≠ ',' := fun c hc =>
      ⟨Text.isBlank_of_isDigit (hds c hc), ne_of_isAtomChar (isAtomChar_iff.2 (.inr (.inl (hds c hc))))⟩
    rw [numberOf, numberOf?_eq_ofText hne hchars, hx]
    exact hwhole
  have hatom : ∀ {ds : List Char}, (∀ c ∈ ds, isDigit c = true) → ∀ c ∈ ds, isAtomChar c = true :=
    fun hds c hc => isAtomChar_iff.2 (.inr (.inl (hds c hc)))
  cases h with
  | @plain ds hne hds =>
    have hwhole := hnumber hne hds (by omega)
    obtain ⟨d, ds, rfl⟩ := List.exists_cons_of_ne_nil hne
    exact ⟨_, levels_atom f (n + 1) (hds d List.mem_cons_self) (hatom hds), hwhole⟩
  | @minus ds hne hds =>
    have hwhole := hnumber hne hds (by omega)
    obtain ⟨d, ds, rfl⟩ := List.exists_cons_of_ne_nil hne
    refine ⟨_, levels_sign_atom f n .minus (hds d List.mem_cons_self) (hatom hds), ?_⟩
    rw [Sign.apply, Number.whole?_neg, hwhole]
    rfl

end IsInteger

theorem datePart?_of_whole {x : Float} {z : Int} (h : Number.whole? x = some z) (hz : z.natAbs < 2 ^ 53) :
    datePart? (.number x) = some z := by
  have hrange : Int64.minValue.toInt ≤ z ∧ z ≤ Int64.maxValue.toInt := by
    show -9223372036854775808 ≤ z ∧ z ≤ 9223372036854775807
    omega
  unfold datePart?
  dsimp only
  rw [Option.filter_some, if_pos (Number.isFinite_of_whole h), Option.map_some,
    Number.truncate_of_whole h hrange.1 hrange.2]

section

variable {year month day : Int} {ys ms ds : List Char}

theorem arguments_integers (hy : IsInteger ys year) (hm : IsInteger ms month) (hd : IsInteger ds day) :
    arguments (ys ++ ',' :: (ms ++ ',' :: ds)) = [ys, ms, ds] := by
  have htrim : ∀ {text : List Char} {z : Int}, IsInteger text z → Text.trim text = text :=
    fun h => Text.trim_eq_self_of_forall h.isBlank
  have hne : Text.trim (ys ++ ',' :: (ms ++ ',' :: ds)) ≠ [] := by
    obtain ⟨c, cs, rfl⟩ := List.exists_cons_of_ne_nil hy.ne_nil
    exact Text.trim_cons_ne_nil (hy.isBlank c List.mem_cons_self) _
  have hafter : ∀ {text : List Char} {z : Int}, IsInteger text z → Scan.start.after text = Scan.start :=
    fun h => (Balanced.of_plain h.isPlain).after 0
  rw [arguments, if_neg (by simpa using hne), cutAt_comma (hafter hy) hy.exposesOnly,
    cutAt_comma (hafter hm) hm.exposesOnly, cutAt_of_hidden hd.exposesOnly, Scan.map_fst_mark]
  simp only [List.map_cons, List.map_nil, htrim hy, htrim hm, htrim hd]

theorem balanced_integers (hy : IsInteger ys year) (hm : IsInteger ms month) (hd : IsInteger ds day) :
    Balanced (ys ++ ',' :: (ms ++ ',' :: ds)) :=
  (Balanced.of_plain hy.isPlain).append ((Balanced.plain isPlain_comma).append
    ((Balanced.of_plain hm.isPlain).append ((Balanced.plain isPlain_comma).append (.of_plain hd.isPlain))))

/-- The call is the text of the date with the three integers. -/
theorem levels_date {ctx : Context} (f : String → List Char → Run Value) (n : Nat) (hy : IsInteger ys year)
    (hm : IsInteger ms month) (hd : IsInteger ds day) (hyear : year.natAbs < 2 ^ 53)
    (hmonth : month.natAbs < 2 ^ 53) (hday : day.natAbs < 2 ^ 53) :
    levels ctx f (n + 3) (Builtin.date.word ++ grouped (ys ++ ',' :: (ms ++ ',' :: ds))) =
      pure (.text (dateText year month day)) := by
  have hbalanced := balanced_integers hy hm hd
  have harguments := arguments_integers hy hm hd
  obtain ⟨x, hx, hxwhole⟩ := hy.levels ctx f n hyear
  obtain ⟨y, hy, hywhole⟩ := hm.levels ctx f n hmonth
  obtain ⟨z, hz, hzwhole⟩ := hd.levels ctx f n hday
  rw [levels_word ctx f (n + 2) .date hbalanced (by rw [harguments]; rfl), harguments]
  simp only [Scope.apply, Scope.date, hx, hy, hz, pure_bind, datePart?_of_whole hxwhole hyear,
    datePart?_of_whole hywhole hmonth, datePart?_of_whole hzwhole hday]

end

/-- A date that is given by its numbers is the text that a cell reads as this date;
for numbers of no day in the calendar it is the empty text. -/
theorem evaluate_date (ctx : Context) {year month day : Int32} {ys ms ds : String}
    (hy : IsInteger ys.toList year.toInt) (hm : IsInteger ms.toList month.toInt)
    (hd : IsInteger ds.toList day.toInt) :
    ∃ t, evaluate ctx ("=DATE(" ++ ys ++ "," ++ ms ++ "," ++ ds ++ ")") = .ok (.text t) ∧
      (∀ d : Date, d.year = year.toInt ∧ (d.month : Int) = month.toInt ∧ (d.day : Int) = day.toInt →
        CellValue.ofInput t = .date d) ∧
      ((∀ d : Date, ¬ (d.year = year.toInt ∧ (d.month : Int) = month.toInt ∧ (d.day : Int) = day.toInt)) →
        t = "") := by
  have hsmall : ∀ n : Int32, n.toInt.natAbs < 2 ^ 53 := by
    intro n
    have hleast := n.le_toInt
    have hgreatest := n.toInt_lt
    omega
  have hformula : ("=DATE(" ++ ys ++ "," ++ ms ++ "," ++ ds ++ ")").toList =
      formulaMark :: (Builtin.date.word ++ grouped (ys.toList ++ ',' :: (ms.toList ++ ',' :: ds.toList))) := by
    simp [formulaMark, Builtin.word, Builtin.signature, grouped]
  have hvalue : levels ctx (cellFormula ctx ctx.options.maxDepth []) levelLimit
      (Builtin.date.word ++ grouped (ys.toList ++ ',' :: (ms.toList ++ ',' :: ds.toList))) =
        pure (.text (dateText year.toInt month.toInt day.toInt)) :=
    levels_date _ 125 hy hm hd (hsmall year) (hsmall month) (hsmall day)
  refine ⟨dateText year.toInt month.toInt day.toInt, evaluate_eq_ok.2 ⟨∅, ?_⟩, fun d hday => ?_, fun hnone => ?_⟩
  · rw [hformula, Builtin.exprOf_word .date (balanced_integers hy hm hd), hvalue]
    rfl
  · rw [dateText, Date.ofNumbers?_eq_some_iff.2 hday]
    exact d.ofInput_text
  · have hdate : Date.ofNumbers? year.toInt month.toInt day.toInt = none :=
      Option.eq_none_iff_forall_ne_some.2 fun d hday => hnone d (Date.ofNumbers?_eq_some_iff.1 hday)
    rw [dateText, hdate]

/-- The last day of February of a leap year before the first year, and the same
day a year later, which there is not. -/
theorem evaluate_date_leap :
    (∃ t, evaluate linked "=DATE(-4,02,29)" = .ok (.text t) ∧
      CellValue.ofInput t = .date ⟨-4, 2, 29, by decide⟩) ∧
    evaluate linked "=DATE(-3,02,29)" = .ok (.text "") := by
  have hmonth : IsInteger "02".toList (2 : Int32).toInt :=
    @IsInteger.plain ['0', '2'] (List.cons_ne_nil _ _) (List.all_eq_true.1 rfl)
  have hday : IsInteger "29".toList (29 : Int32).toInt :=
    @IsInteger.plain ['2', '9'] (List.cons_ne_nil _ _) (List.all_eq_true.1 rfl)
  constructor
  · have hyear : IsInteger "-4".toList (-4 : Int32).toInt :=
      @IsInteger.minus ['4'] (List.cons_ne_nil _ _) (List.all_eq_true.1 rfl)
    obtain ⟨t, ht, hdate, -⟩ := evaluate_date linked hyear hmonth hday
    exact ⟨t, ht, hdate ⟨-4, 2, 29, by decide⟩ ⟨rfl, rfl, rfl⟩⟩
  · have hyear : IsInteger "-3".toList (-3 : Int32).toInt :=
      @IsInteger.minus ['3'] (List.cons_ne_nil _ _) (List.all_eq_true.1 rfl)
    obtain ⟨t, ht, -, hnone⟩ := evaluate_date linked hyear hmonth hday
    have hempty : t = "" := by
      refine hnone fun d ⟨hy, hm, hd⟩ => ?_
      have hexists := d.exists_day
      rw [hy, Int.ofNat.inj hm, Int.ofNat.inj hd] at hexists
      exact absurd hexists (by decide)
    exact hempty ▸ ht

end Spreadsheet.Formula

import Mathlib.Data.List.Infix
import Spreadsheet.Sheet.Search

/-
  Small letters of a part and of the whole.

  Only a capital sigma has a small letter that hangs on what stands around it,
  and it hangs on the nearest characters to either side that are not
  case-ignorable. So a text has the same small letters wherever it stands if each
  of its sigmas is decided within it; then what contains the text contains it in
  small letters too. For every other text there is one that contains it and in
  small letters does not (`forall_lower_infix_iff`).
-/

namespace Spreadsheet.Text

/-! ## Where a text occurs -/

theorem occursIn_iff {needle cs : List Char} : occursIn needle cs = true ↔ needle <:+: cs := by
  induction cs with
  | nil => simp [occursIn]
  | cons c cs ih => rw [occursIn, Bool.or_eq_true, List.isPrefixOf_iff_prefix, ih, List.infix_cons_iff]

/-! ## What decides a sigma -/

/-- The nearest character of a text that is not case-ignorable. -/
def nearest? (cs : List Char) : Option Char := cs.find? fun c => !inRanges caseIgnorableRanges c.toNat

/-- Whether a character is a letter of an alphabet with two cases. -/
def isCased (c : Char) : Bool := inRanges casedRanges c.toNat

theorem meetsCased_eq (cs : List Char) : meetsCased cs = (nearest? cs).any isCased := by
  induction cs with
  | nil => rfl
  | cons c cs ih =>
    rw [nearest?, List.find?_cons, meetsCased, List.dropWhile_cons]
    cases inRanges caseIgnorableRanges c.toNat with
    | true => exact ih
    | false => rfl

theorem nearest?_append (cs ds : List Char) : nearest? (cs ++ ds) = (nearest? cs).or (nearest? ds) :=
  List.find?_append

theorem nearest?_cons_of_some {c : Char} (h : nearest? [c] = some c) (cs : List Char) :
    nearest? (c :: cs) = some c := by
  rw [← List.singleton_append, nearest?_append, h]
  rfl

theorem nearest?_sigma (cs : List Char) : nearest? ('Σ' :: cs) = some 'Σ' :=
  nearest?_cons_of_some (by decide +kernel) cs

theorem sigma_notMem {cs : List Char} (h : nearest? cs = none) : 'Σ' ∉ cs := by
  intro hmem
  have hignorable := List.find?_eq_none.1 h 'Σ' hmem
  revert hignorable
  decide +kernel

theorem smallSigma_congr {before before' after after' : List Char} (hbefore : nearest? before = nearest? before')
    (hafter : nearest? after = nearest? after') : smallSigma before after = smallSigma before' after' := by
  rw [smallSigma, smallSigma, meetsCased_eq, meetsCased_eq, meetsCased_eq, meetsCased_eq, hbefore, hafter]

/-- Whether the texts around a sigma decide it, whatever stands around these: a
cased letter comes after it, or something else than a cased letter before it, or
something that is not case-ignorable on either side. `before` is read
backwards. -/
def decidesSigma (before after : List Char) : Bool :=
  (nearest? after).any isCased || (nearest? before).any (!isCased ·) ||
    (nearest? before).isSome && (nearest? after).isSome

theorem smallSigma_of_decides {before after : List Char} (h : decidesSigma before after = true)
    (front back : List Char) : smallSigma (before ++ front) (after ++ back) = smallSigma before after := by
  rw [smallSigma, smallSigma, meetsCased_eq, meetsCased_eq, meetsCased_eq, meetsCased_eq, nearest?_append,
    nearest?_append]
  unfold decidesSigma at h
  cases hbefore : nearest? before with
  | none =>
    -- a cased letter follows
    cases hafter : nearest? after with
    | none => simp [hbefore, hafter] at h
    | some c =>
      have hc : isCased c = true := by simpa [hbefore, hafter] using h
      simp [hc]
  | some b =>
    cases hafter : nearest? after with
    | none =>
      have hb : isCased b = false := by simpa [hbefore, hafter] using h
      simp [hb]
    | some c => simp

/-- Whether a text decides all its sigmas. `before` is what precedes it,
backwards. -/
def decidesSigmas (before : List Char) : List Char → Bool
  | [] => true
  | c :: cs => (c != 'Σ' || decidesSigma before cs) && decidesSigmas (c :: before) cs

theorem exists_of_not_decides {before cs : List Char} (h : decidesSigmas before cs = false) :
    ∃ front back, cs = front ++ 'Σ' :: back ∧ decidesSigma (front.reverse ++ before) back = false := by
  induction cs generalizing before with
  | nil => cases h
  | cons c cs ih =>
    rw [decidesSigmas, Bool.and_eq_false_iff, Bool.or_eq_false_iff, bne_eq_false_iff_eq] at h
    rcases h with ⟨rfl, h⟩ | h
    · exact ⟨[], cs, rfl, h⟩
    · obtain ⟨front, back, rfl, hopen⟩ := ih h
      exact ⟨c :: front, back, rfl, by simpa using hopen⟩

/-! ## Small letters between two texts -/

/-- The small letters of a text that stands between two others, the first of them
read backwards. -/
def lowerBetween (before after : List Char) : List Char → List Char
  | [] => []
  | c :: cs =>
    (if c = 'Σ' then [smallSigma before (cs ++ after)] else lowerChar c) ++ lowerBetween (c :: before) after cs

theorem lowerAfter_append (before cs ds : List Char) :
    lowerAfter before (cs ++ ds) = lowerBetween before ds cs ++ lowerAfter (cs.reverse ++ before) ds := by
  induction cs generalizing before with
  | nil => rfl
  | cons c cs ih =>
    rw [List.cons_append, lowerAfter, lowerBetween, ih]
    split <;> simp

theorem lowerBetween_nil (before cs : List Char) : lowerBetween before [] cs = lowerAfter before cs := by
  have happend := lowerAfter_append before cs []
  rw [List.append_nil] at happend
  rw [happend, lowerAfter, List.append_nil]

theorem lowerBetween_congr {before before' after after' : List Char} (hbefore : nearest? before = nearest? before')
    (hafter : nearest? after = nearest? after') (cs : List Char) :
    lowerBetween before after cs = lowerBetween before' after' cs := by
  induction cs generalizing before before' with
  | nil => rfl
  | cons c cs ih =>
    have hnext : nearest? ([c] ++ before) = nearest? ([c] ++ before') := by
      rw [nearest?_append, nearest?_append, hbefore]
    have hrest : nearest? (cs ++ after) = nearest? (cs ++ after') := by
      rw [nearest?_append, nearest?_append, hafter]
    have hlater : lowerBetween (c :: before) after cs = lowerBetween (c :: before') after' cs := ih hnext
    rw [lowerBetween, lowerBetween, hlater, smallSigma_congr hbefore hrest]

/-- Without a sigma they hang on nothing. -/
theorem lowerBetween_of_notMem {cs : List Char} (h : 'Σ' ∉ cs) (before after : List Char) :
    lowerBetween before after cs = cs.flatMap lowerChar := by
  induction cs generalizing before with
  | nil => rfl
  | cons c cs ih =>
    rw [List.mem_cons, not_or] at h
    rw [lowerBetween, if_neg (Ne.symm h.1), ih h.2, List.flatMap_cons]

theorem lowerAfter_of_notMem {cs : List Char} (h : 'Σ' ∉ cs) (before : List Char) :
    lowerAfter before cs = cs.flatMap lowerChar := by
  rw [← lowerBetween_nil, lowerBetween_of_notMem h]

/-- Nor if the text decides its sigmas. -/
theorem lowerBetween_of_decides {before cs : List Char} (h : decidesSigmas before cs = true)
    (front back : List Char) : lowerBetween (before ++ front) back cs = lowerAfter before cs := by
  induction cs generalizing before with
  | nil => rfl
  | cons c cs ih =>
    rw [decidesSigmas, Bool.and_eq_true, Bool.or_eq_true, bne_iff_ne] at h
    obtain ⟨hsigma, hrest⟩ := h
    have ih := ih hrest
    rw [List.cons_append] at ih
    rw [lowerBetween, lowerAfter, ih]
    split
    · rename_i hc
      rw [smallSigma_of_decides (hsigma.resolve_left fun hne => hne hc)]
      rfl
    · rfl

/-! ## Small letters of a text that contains another -/

theorem lower_infix_of_decides {needle cs : List Char} (h : decidesSigmas [] needle = true)
    (hin : needle <:+: cs) : lower needle <:+: lower cs := by
  obtain ⟨front, back, rfl⟩ := hin
  have hneedle : lowerBetween (front.reverse ++ []) back needle = lower needle := by
    rw [List.append_nil]
    exact lowerBetween_of_decides h front.reverse back
  have hwhole : lower (front ++ (needle ++ back)) = lowerBetween [] (needle ++ back) front ++
      (lower needle ++ lowerAfter (needle.reverse ++ (front.reverse ++ [])) back) := by
    rw [lower, lowerAfter_append, lowerAfter_append, hneedle]
  rw [List.append_assoc, hwhole, ← List.append_assoc]
  exact ⟨_, _, rfl⟩

/-- A text with one character replaced does not occur in the result, if what is
put around it does not have that character. -/
theorem not_infix_of_replaced {c d : Char} (hne : d ≠ c) {before after : List Char} (hbefore : c ∉ before)
    (hafter : c ∉ after) (front back : List Char) :
    ¬ front ++ c :: back <:+: before ++ (front ++ d :: (back ++ after)) := by
  intro hin
  have hcount := hin.sublist.count_le c
  simp only [List.count_append, List.count_cons_self, List.count_cons_of_ne hne,
    List.count_eq_zero_of_not_mem hbefore, List.count_eq_zero_of_not_mem hafter] at hcount
  omega

section

variable {front back : List Char}

theorem lowerAfter_sigma (before : List Char) :
    lowerAfter before (front ++ 'Σ' :: back) =
      lowerBetween before ('Σ' :: back) front ++ smallSigma (front.reverse ++ before) back ::
        lowerAfter ('Σ' :: (front.reverse ++ before)) back := by
  rw [lowerAfter_append, lowerAfter, if_pos rfl]

theorem lower_sigma :
    lower (front ++ 'Σ' :: back) = lowerBetween [] ('Σ' :: back) front ++
      smallSigma front.reverse back :: lowerAfter ('Σ' :: front.reverse) back := by
  rw [lower, lowerAfter_sigma, List.append_nil]

/-- Behind a cased letter and with nothing to decide it after it, a sigma is
final until a cased letter follows. -/
theorem not_lower_infix_of_open_after (hbefore : (nearest? front.reverse).any isCased = true)
    (hafter : nearest? back = none) :
    ¬ lower (front ++ 'Σ' :: back) <:+: lower (front ++ 'Σ' :: (back ++ ['Β'])) := by
  have hbeta : (nearest? ['Β']).any isCased = true := by decide +kernel
  have hfinal : smallSigma front.reverse back = 'ς' := by
    rw [smallSigma, meetsCased_eq, meetsCased_eq, hbefore, hafter]
    rfl
  have hinner : smallSigma front.reverse (back ++ ['Β']) = 'σ' := by
    rw [smallSigma, meetsCased_eq (back ++ _), nearest?_append, hafter, Option.none_or, hbeta]
    simp
  have hfront : lowerBetween [] ('Σ' :: (back ++ ['Β'])) front = lowerBetween [] ('Σ' :: back) front :=
    lowerBetween_congr rfl ((nearest?_sigma _).trans (nearest?_sigma _).symm) front
  have hback : lowerAfter ('Σ' :: front.reverse) (back ++ ['Β']) =
      lowerAfter ('Σ' :: front.reverse) back ++ lowerChar 'Β' := by
    have hplain := sigma_notMem hafter
    have hlonger : 'Σ' ∉ back ++ ['Β'] := by simp [hplain]
    rw [lowerAfter_of_notMem hlonger, lowerAfter_of_notMem hplain, List.flatMap_append, List.flatMap_singleton]
  have hnew : 'ς' ∉ lowerChar 'Β' := by decide +kernel
  rw [lower_sigma, lower_sigma, hfinal, hinner, hfront, hback]
  exact not_infix_of_replaced (by decide) List.not_mem_nil hnew _ _

/-- With no cased letter after it and nothing to decide it before it, a sigma is
not final until a cased letter precedes it. -/
theorem not_lower_infix_of_open_before (hbefore : nearest? front.reverse = none)
    (hafter : (nearest? back).any isCased = false) :
    ¬ lower (front ++ 'Σ' :: back) <:+: lower ('Α' :: (front ++ 'Σ' :: back)) := by
  have halpha : (nearest? ['Α']).any isCased = true := by decide +kernel
  have hinner : smallSigma front.reverse back = 'σ' := by
    rw [smallSigma, meetsCased_eq, hbefore]
    rfl
  have hfinal : smallSigma (front.reverse ++ ['Α']) back = 'ς' := by
    rw [smallSigma, meetsCased_eq, meetsCased_eq, nearest?_append, hbefore, Option.none_or, halpha, hafter]
    rfl
  have hfront : lowerBetween ['Α'] ('Σ' :: back) front = lowerBetween [] ('Σ' :: back) front := by
    have hplain : 'Σ' ∉ front := fun hmem => sigma_notMem hbefore (List.mem_reverse.2 hmem)
    rw [lowerBetween_of_notMem hplain, lowerBetween_of_notMem hplain]
  have hback : lowerAfter ('Σ' :: (front.reverse ++ ['Α'])) back = lowerAfter ('Σ' :: front.reverse) back := by
    rw [← lowerBetween_nil, ← lowerBetween_nil]
    exact lowerBetween_congr ((nearest?_sigma _).trans (nearest?_sigma _).symm) rfl back
  have hwhole : lower ('Α' :: (front ++ 'Σ' :: back)) = lowerChar 'Α' ++
      (lowerBetween [] ('Σ' :: back) front ++ 'ς' :: lowerAfter ('Σ' :: front.reverse) back) := by
    rw [lower, lowerAfter, if_neg (by decide), lowerAfter_sigma, hfinal, hfront, hback]
  have hnew : 'σ' ∉ lowerChar 'Α' := by decide +kernel
  have hreplaced := not_infix_of_replaced (d := 'ς') (c := 'σ') (by decide) hnew List.not_mem_nil
    (lowerBetween [] ('Σ' :: back) front) (lowerAfter ('Σ' :: front.reverse) back)
  rw [List.append_nil] at hreplaced
  rwa [hwhole, lower_sigma, hinner]

end

/-- What contains a text contains it in small letters too, exactly for the texts
that decide their sigmas. -/
theorem forall_lower_infix_iff {needle : List Char} :
    (∀ cs, needle <:+: cs → lower needle <:+: lower cs) ↔ decidesSigmas [] needle = true := by
  refine ⟨fun h => ?_, fun h cs hin => lower_infix_of_decides h hin⟩
  by_contra hnot
  obtain ⟨front, back, rfl, hopen⟩ := exists_of_not_decides (Bool.eq_false_iff.2 hnot)
  rw [List.append_nil, decidesSigma, Bool.or_eq_false_iff, Bool.or_eq_false_iff, Bool.and_eq_false_iff] at hopen
  obtain ⟨⟨hafter, huncased⟩, hnone⟩ := hopen
  cases hbefore : nearest? front.reverse with
  | none => exact not_lower_infix_of_open_before hbefore hafter (h _ (List.suffix_cons _ _).isInfix)
  | some c =>
    have hcased : (nearest? front.reverse).any isCased = true := by simpa [hbefore] using huncased
    have hback : nearest? back = none := by simpa [hbefore] using hnone
    refine not_lower_infix_of_open_after hcased hback (h _ ?_)
    exact ⟨[], ['Β'], by simp⟩

example : decidesSigmas [] "ΣΑ".toList = true ∧ decidesSigmas [] "ΑΣ".toList = false := by decide +kernel

end Spreadsheet.Text

import Spreadsheet.Formula.Shape
import Spreadsheet.Proofs.Formula.Scan
import Spreadsheet.Proofs.Text

/-
  Texts that keep to themselves.

  A balanced text closes every quote and parenthesis it opens, and closes none
  it did not open. Each of the scans passes over it and is where it was before;
  inside parentheses it exposes nothing. Literals, groups and rows of balanced
  texts are balanced. Of a literal it does not matter which characters it holds,
  as every scan that enters it stays inside until the quote at its end
  (`Sheltered.doubled`).
-/

namespace Spreadsheet.Formula

open Scan (start)

/-- A text that leaves every scan where it found it. -/
structure Balanced (t : List Char) : Prop where
  after : ∀ d : Int, (⟨d, false⟩ : Scan).after t = ⟨d, false⟩
  hidden : ∀ d : Int, 0 < d → ∀ p ∈ (⟨d, false⟩ : Scan).mark t, p.2 = false
  closing : ∀ depth rest, closing depth false (t ++ rest) =
    (closing depth false rest).map fun p => (t ++ p.1, p.2)
  capitalized : ∀ rest, capitalized false (t ++ rest) = t ++ capitalized false rest

def grouped (t : List Char) : List Char := '(' :: (t ++ [')'])

/-- A character that stands for itself: no quote, no parenthesis, and its own
capital. -/
structure IsPlain (c : Char) : Prop where
  quote : c ≠ quoteMark
  left : c ≠ '('
  right : c ≠ ')'
  upper : Text.upperChar c = [c]

theorem IsPlain.next {c : Char} (h : IsPlain c) (d : Int) : (⟨d, false⟩ : Scan).next c = ⟨d, false⟩ := by
  simp [Scan.next, h.quote, h.left, h.right]

theorem isPlain_of_isCapital {c : Char} (h : Text.isCapital c = true) : IsPlain c := by
  refine ⟨?_, ?_, ?_, Text.upperChar_of_isCapital h⟩ <;> intro hc <;> subst hc <;> cases h

theorem isPlain_of_isDigit {c : Char} (h : Text.isDigit c = true) : IsPlain c := by
  refine ⟨?_, ?_, ?_, Text.upperChar_of_isDigit h⟩ <;> intro hc <;> subst hc <;> cases h

theorem isPlain_symbol (op : Operator) : IsPlain op.symbol := by
  cases op <;> exact ⟨by decide, by decide, by decide, by decide⟩

theorem isPlain_of_mem_symbol {op : Comparison} {c : Char} (h : c ∈ op.symbol) : IsPlain c := by
  have hmarks : ∀ c ∈ ['<', '>', '='], IsPlain c := by
    intro c hc
    simp only [List.mem_cons, List.not_mem_nil, or_false] at hc
    rcases hc with rfl | rfl | rfl <;> exact ⟨by decide, by decide, by decide, by decide⟩
  have hsub : op.symbol ⊆ ['<', '>', '='] := by cases op <;> decide
  exact hmarks c (hsub h)

/-! ## Inside a literal -/

/-- A text that leaves every scan inside a literal, as it found it. -/
structure Sheltered (t : List Char) : Prop where
  after : ∀ d : Int, (⟨d, true⟩ : Scan).after t = ⟨d, true⟩
  hidden : ∀ d : Int, ∀ p ∈ (⟨d, true⟩ : Scan).mark t, p.2 = false
  closing : ∀ depth rest, closing depth true (t ++ rest) =
    (closing depth true rest).map fun p => (t ++ p.1, p.2)
  capitalized : ∀ rest, capitalized true (t ++ rest) = t ++ capitalized true rest

namespace Sheltered

theorem nil : Sheltered [] where
  after _ := rfl
  hidden _ _ hp := by cases hp
  closing depth rest := by
    rw [List.nil_append]
    simp
  capitalized _ := rfl

theorem append {t u : List Char} (ht : Sheltered t) (hu : Sheltered u) : Sheltered (t ++ u) where
  after d := by rw [Scan.after_append, ht.after, hu.after]
  hidden d p hp := by
    rw [Scan.mark_append, ht.after, List.mem_append] at hp
    rcases hp with hp | hp
    · exact ht.hidden d p hp
    · exact hu.hidden d p hp
  closing depth rest := by
    rw [List.append_assoc, ht.closing, hu.closing, Option.map_map]
    simp [Function.comp_def]
  capitalized rest := by rw [List.append_assoc, ht.capitalized, hu.capitalized, List.append_assoc]

theorem singleton {c : Char} (hc : c ≠ quoteMark) : Sheltered [c] where
  after d := by simp [Scan.after, Scan.next, hc]
  hidden d p hp := by
    obtain rfl := List.mem_singleton.1 hp
    rfl
  closing depth rest := closing_quoted depth rest hc
  capitalized rest := by
    rw [List.singleton_append, Formula.capitalized, if_neg hc, if_pos rfl]
    rfl

theorem quotes : Sheltered [quoteMark, quoteMark] where
  after _ := rfl
  hidden d p hp := by
    rcases List.mem_cons.1 hp with rfl | hp
    · rfl
    · obtain rfl := List.mem_singleton.1 hp
      simp [Scan.exposes]
  closing depth rest := by
    rw [List.cons_append, List.singleton_append, closing_quote, Bool.not_true, closing_quote, Option.map_map]
    rfl
  capitalized _ := rfl

theorem doubled (text : List Char) : Sheltered (Quoted.doubled text) := by
  induction text with
  | nil => exact nil
  | cons c cs ih =>
    rw [Quoted.doubled]
    split
    · exact quotes.append ih
    · exact (singleton ‹_›).append ih

end Sheltered

theorem hidden_literal (text : List Char) (d : Int) :
    ∀ p ∈ (⟨d, false⟩ : Scan).mark (Quoted.literal text), p.2 = false := by
  have hopen : (⟨d, false⟩ : Scan).next quoteMark = ⟨d, true⟩ := rfl
  have hinside := Sheltered.doubled text
  intro p hp
  rw [Quoted.literal, Scan.mark, hopen, Scan.mark_append, hinside.after, List.mem_cons, List.mem_append] at hp
  rcases hp with rfl | hp | hp
  · simp [Scan.exposes]
  · exact hinside.hidden d p hp
  · obtain rfl := List.mem_singleton.1 hp
    rfl

/-! ## Balanced texts -/

namespace Balanced

/-- What follows a balanced text is scanned as if it stood alone. -/
theorem mark_append {t : List Char} (ht : Balanced t) (rest : List Char) :
    start.mark (t ++ rest) = start.mark t ++ start.mark rest := by
  rw [Scan.mark_append, start, ht.after]

theorem nil : Balanced [] where
  after _ := rfl
  hidden _ _ _ hp := by cases hp
  closing depth rest := by
    rw [List.nil_append]
    simp
  capitalized _ := rfl

theorem append {t u : List Char} (ht : Balanced t) (hu : Balanced u) : Balanced (t ++ u) where
  after d := by rw [Scan.after_append, ht.after, hu.after]
  hidden d hd p hp := by
    rw [Scan.mark_append, ht.after, List.mem_append] at hp
    rcases hp with hp | hp
    · exact ht.hidden d hd p hp
    · exact hu.hidden d hd p hp
  closing depth rest := by
    rw [List.append_assoc, ht.closing, hu.closing, Option.map_map]
    simp [Function.comp_def]
  capitalized rest := by rw [List.append_assoc, ht.capitalized, hu.capitalized, List.append_assoc]

theorem plain {c : Char} (hc : IsPlain c) : Balanced [c] where
  after d := hc.next d
  hidden d hd p hp := by
    obtain rfl := List.mem_singleton.1 hp
    have hdepth : (d == 0) = false := beq_false_of_ne (by omega)
    simp [Scan.exposes, hdepth]
  closing depth rest := by
    rw [List.singleton_append, closing_plain depth rest hc.quote hc.left hc.right]
    rfl
  capitalized rest := by
    rw [List.singleton_append, Formula.capitalized, if_neg hc.quote, hc.upper]
    rfl

theorem of_plain {t : List Char} (ht : ∀ c ∈ t, IsPlain c) : Balanced t := by
  induction t with
  | nil => exact nil
  | cons c t ih =>
    exact (plain (ht c List.mem_cons_self)).append (ih fun d hd => ht d (List.mem_cons_of_mem c hd))

theorem grouped {t : List Char} (ht : Balanced t) : Balanced (grouped t) where
  after d := by
    have hopen : (⟨d, false⟩ : Scan).next '(' = ⟨d + 1, false⟩ := rfl
    have hclose : (⟨d + 1, false⟩ : Scan).next ')' = ⟨d + 1 - 1, false⟩ := rfl
    rw [Formula.grouped, Scan.after_cons, hopen, Scan.after_append, ht.after, Scan.after_cons, hclose,
      Int.add_sub_cancel]
    rfl
  hidden d hd p hp := by
    have hopen : (⟨d, false⟩ : Scan).next '(' = ⟨d + 1, false⟩ := rfl
    rw [Formula.grouped, Scan.mark, hopen, Scan.mark_append, ht.after, List.mem_cons, List.mem_append] at hp
    rcases hp with rfl | hp | hp
    · simp [Scan.exposes]
    · exact ht.hidden (d + 1) (by omega) p hp
    · obtain rfl := List.mem_singleton.1 hp
      simp [Scan.exposes]
  closing depth rest := by
    rw [Formula.grouped, List.cons_append, List.append_assoc, closing_open, ht.closing,
      List.singleton_append, closing_close]
    simp [Function.comp_def]
  capitalized rest := by
    have hquote : ¬ '(' = quoteMark := by decide
    have hquote' : ¬ ')' = quoteMark := by decide
    rw [Formula.grouped, List.cons_append, List.append_assoc, Formula.capitalized, if_neg hquote,
      ht.capitalized, List.singleton_append, Formula.capitalized, if_neg hquote']
    simp [Text.upperChar]

theorem literal (text : List Char) : Balanced (Quoted.literal text) where
  after d := by
    have hopen : (⟨d, false⟩ : Scan).next quoteMark = ⟨d, true⟩ := rfl
    rw [Quoted.literal, Scan.after_cons, hopen, Scan.after_append, (Sheltered.doubled text).after]
    rfl
  hidden d _ := hidden_literal text d
  closing depth rest := by
    rw [Quoted.literal, List.cons_append, List.append_assoc, List.singleton_append, closing_quote,
      Bool.not_false, (Sheltered.doubled text).closing, closing_quote, Bool.not_true]
    simp [Function.comp_def]
  capitalized rest := by
    rw [Quoted.literal, List.cons_append, List.append_assoc, List.singleton_append, Formula.capitalized,
      if_pos rfl, Bool.not_false, (Sheltered.doubled text).capitalized, Formula.capitalized, if_pos rfl]
    simp

end Balanced

/-! ## What a text exposes -/

/-- Whether every character that a text exposes has a property. -/
def ExposesOnly (p : Char → Prop) (t : List Char) : Prop := ∀ q ∈ start.mark t, q.2 = true → p q.1

namespace ExposesOnly

variable {p : Char → Prop} {t u : List Char}

theorem of_forall (h : ∀ c ∈ t, p c) : ExposesOnly p t := by
  intro q hq _
  refine h q.1 ?_
  rw [← Scan.map_fst_mark start t]
  exact List.mem_map_of_mem hq

theorem append_of_after (hafter : start.after t = start) (ht : ExposesOnly p t) (hu : ExposesOnly p u) :
    ExposesOnly p (t ++ u) := by
  intro q hq
  rw [Scan.mark_append, hafter, List.mem_append] at hq
  rcases hq with hq | hq
  · exact ht q hq
  · exact hu q hq

theorem append (hbalanced : Balanced t) (ht : ExposesOnly p t) (hu : ExposesOnly p u) :
    ExposesOnly p (t ++ u) := append_of_after (hbalanced.after 0) ht hu

theorem literal (text : List Char) : ExposesOnly p (Quoted.literal text) := by
  intro q hq hexposed
  rw [hidden_literal text 0 q hq] at hexposed
  cases hexposed

theorem grouped (ht : Balanced t) : ExposesOnly p (grouped t) := by
  have hopen : start.next '(' = ⟨1, false⟩ := rfl
  intro q hq hexposed
  rw [Formula.grouped, Scan.mark, hopen, Scan.mark_append, ht.after, List.mem_cons, List.mem_append] at hq
  rcases hq with rfl | hq | hq
  · cases hexposed
  · rw [ht.hidden 1 (by decide) q hq] at hexposed
    cases hexposed
  · obtain rfl := List.mem_singleton.1 hq
    cases hexposed

end ExposesOnly

end Spreadsheet.Formula

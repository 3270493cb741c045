import Spreadsheet.Proofs.Formula.Limits
import Spreadsheet.Proofs.Formula.Shapes

/-
  Text literals, read and evaluated.

  Reading a literal and writing one are inverse to each other: every text has a
  literal, and no other expression is read as that text
  (`Quoted.text?_eq_some_iff`). Quotes are doubled inside, so a scan that changes
  sides at each quote sees the whole inside as quoted. That keeps the case of its
  letters, and as the outermost characters are quotes no blank is dropped.
-/

namespace Spreadsheet.Formula

namespace Quoted

theorem eq_doubled_of_undoubled? {t s : List Char} (h : undoubled? t = some s) : t = doubled s := by
  fun_induction undoubled? t generalizing s with
  | case1 =>
    cases h
    rfl
  | case2 => cases h
  | case3 c hc =>
    cases h
    rw [doubled, if_neg hc]
    rfl
  | case4 cs ih =>
    obtain ⟨s', hs', rfl⟩ := Option.map_eq_some_iff.1 h
    rw [doubled, if_pos rfl, ih hs']
  | case5 => cases h
  | case6 c d cs hc ih =>
    obtain ⟨s', hs', rfl⟩ := Option.map_eq_some_iff.1 h
    rw [doubled, if_neg hc, ih hs']

/-- An expression is read as a text exactly if it is the literal of the text. -/
theorem text?_eq_some_iff {e s : List Char} : text? e = some s ↔ e = literal s := by
  constructor
  · intro h
    unfold text? at h
    split at h
    · cases h
    · rename_i c cs
      split at h
      · rename_i hends
        rw [Bool.and_eq_true, decide_eq_true_iff, beq_iff_eq] at hends
        obtain ⟨rfl, hlast⟩ := hends
        obtain ⟨inside, rfl⟩ := List.getLast?_eq_some_iff.1 hlast
        rw [List.dropLast_concat] at h
        rw [literal, eq_doubled_of_undoubled? h]
      · cases h
  · rintro rfl
    exact text?_literal s

theorem trim_literal (s : List Char) : Text.trim (literal s) = literal s := by
  refine Text.trim_eq_self ?_ ?_
  · rintro _ ⟨⟩
    decide
  · intro c hc
    rw [literal, ← List.cons_append, List.getLast?_concat] at hc
    cases hc
    decide

end Quoted

theorem levels_literal {ctx : Context} (f : String → List Char → Run Value) (n : Nat) (s : List Char) :
    levels ctx f (n + 1) (Quoted.literal s) = pure (.text (String.ofList s)) := by
  rw [levels, Quoted.trim_literal, Shape.ofExpr_literal]
  rfl

/-- Every text has one literal: its value as a formula is the text, and no other
expression is read as the text. -/
theorem literal_encodes :
    (∀ (ctx : Context) (s : String),
      evaluate ctx (String.ofList (formulaMark :: Quoted.literal s.toList)) = .ok (.text s)) ∧
    ∀ e s : List Char, Quoted.text? e = some s ↔ e = Quoted.literal s := by
  refine ⟨fun ctx s => evaluate_eq_ok.2 ⟨∅, ?_⟩, fun e s => Quoted.text?_eq_some_iff⟩
  have hexpr : exprOf (formulaMark :: Quoted.literal s.toList) = Quoted.literal s.toList :=
    (Balanced.literal s.toList).exprOf (List.cons_ne_nil _ _) (Quoted.trim_literal s.toList)
  have hvalue : levels ctx (cellFormula ctx ctx.options.maxDepth []) levelLimit (Quoted.literal s.toList) =
      pure (.text (String.ofList s.toList)) := levels_literal _ 127 s.toList
  rw [String.toList_ofList, hexpr, hvalue, String.ofList_toList]
  rfl

end Spreadsheet.Formula

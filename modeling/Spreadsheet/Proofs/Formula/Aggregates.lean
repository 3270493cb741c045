import Spreadsheet.Proofs.Formula.Expansion
import Spreadsheet.Proofs.Formula.Limits
import Spreadsheet.Proofs.Formula.Tree
import Spreadsheet.Proofs.Number.Whole

/-
  Aggregates over ranges.

  Where no cell of a range holds a formula, an aggregate over the range is that of
  the values its cells stand for, row by row (`evaluate_over`). Among the values a
  text that is no number is a label: the aggregates of numbers pass over it, and
  only the count sees it.
-/

namespace Spreadsheet.Formula

/-- The formula of an aggregator over the range between two corners. -/
def Aggregator.over (f : Aggregator) (a b : Address) : String :=
  "=" ++ f.builtin.signature.name ++ "(" ++ a.label ++ ":" ++ b.label ++ ")"

theorem Aggregator.toList_over (f : Aggregator) (a b : Address) :
    (f.over a b).toList = formulaMark :: (f.builtin.word ++ grouped (a.name ++ ':' :: b.name)) := by
  simp [Aggregator.over, formulaMark, Builtin.word, grouped, Address.label]

/-! ## Ranges as arguments -/

section

variable (a b : Address)

theorem isAtomChar_or_of_mem_corners {c : Char} (hc : c ∈ a.name ++ ':' :: b.name) :
    isAtomChar c = true ∨ c = ':' := by
  rcases List.mem_append.1 hc with hc | hc
  · exact .inl (isAtomChar_of_isAddressForm (isAddressForm_name a) c hc)
  · rcases List.mem_cons.1 hc with rfl | hc
    · exact .inr rfl
    · exact .inl (isAtomChar_of_isAddressForm (isAddressForm_name b) c hc)

theorem balanced_corners : Balanced (a.name ++ ':' :: b.name) := by
  refine .of_plain fun c hc => ?_
  rcases isAtomChar_or_of_mem_corners a b hc with hc | rfl
  · exact isPlain_of_isAtomChar hc
  · exact ⟨by decide, by decide, by decide, by decide⟩

theorem arguments_corners : arguments (a.name ++ ':' :: b.name) = [a.name ++ ':' :: b.name] := by
  have hcomma : ExposesOnly (· ≠ ',') (a.name ++ ':' :: b.name) := by
    refine .of_forall fun c hc => ?_
    rcases isAtomChar_or_of_mem_corners a b hc with hc | rfl
    · exact comma_notMem_of_isAtomChar hc
    · decide
  rw [arguments, Range.trim_corners, if_neg (by simp), cutAt_of_hidden hcomma, Scan.map_fst_mark,
    List.map_singleton, Range.trim_corners]

end

/-! ## Values of ranges -/

variable {a b : Address}

theorem yields_cells (s : Scope) {cells : List Address} (hnone : ∀ d ∈ cells, s.ctx.formulaAt? d.label = none) :
    Yields (cells.mapM fun d => s.cell d.label) (.ok (cells.map fun d => s.ctx.literalAt d.label)) := by
  induction cells with
  | nil => exact .pure _
  | cons d cells ih =>
    obtain ⟨hd, hcells⟩ := List.forall_mem_cons.1 hnone
    have hcell : Yields (s.cell d.label) (.ok (s.ctx.literalAt d.label)) :=
      s.cell_of_literal hd (by simp)
    rw [List.mapM_cons]
    exact hcell.bind fun v => (ih hcells).bind fun vs => .pure _

/-- Applied to a range without formulas, if this has not too many cells in the
grid, an aggregator yields its value for what these cells stand for. -/
theorem yields_over (s : Scope) (f : Aggregator)
    (hnone : ∀ d ∈ (Range.spanning a b).cellsIn s.ctx.bounds, s.ctx.formulaAt? d.label = none)
    (hsize : ((Range.spanning a b).cellsIn s.ctx.bounds).length ≤ s.ctx.options.maxRangeCells) :
    Yields (s.apply f.builtin [a.name ++ ':' :: b.name])
      (.ok (f.ofValues (((Range.spanning a b).cellsIn s.ctx.bounds).map fun d => s.ctx.literalAt d.label))) := by
  have hexpand : s.expandAll [a.name ++ ':' :: b.name] =
      ((Range.spanning a b).cellsIn s.ctx.bounds).mapM fun d => s.cell d.label := by
    simp [Scope.expandAll, s.expand_corners hsize]
  rw [Scope.apply_aggregator, hexpand]
  exact (yields_cells s hnone).bind fun vs => .pure _

theorem evaluate_over (ctx : Context) (f : Aggregator)
    (hnone : ∀ d ∈ (Range.spanning a b).cellsIn ctx.bounds, ctx.formulaAt? d.label = none)
    (hsize : ((Range.spanning a b).cellsIn ctx.bounds).length ≤ ctx.options.maxRangeCells) :
    evaluate ctx (f.over a b) =
      .ok (f.ofValues (((Range.spanning a b).cellsIn ctx.bounds).map fun d => ctx.literalAt d.label)) := by
  have harity : f.builtin.signature.arity.accepts (arguments (a.name ++ ':' :: b.name)).length = true := by
    rw [arguments_corners]
    cases f <;> rfl
  refine evaluate_eq_ok.2 ⟨∅, ?_⟩
  rw [f.toList_over, Builtin.exprOf_word _ (balanced_corners a b)]
  show levels ctx (cellFormula ctx ctx.options.maxDepth []) (127 + 1) _ ∅ = _
  rw [levels_word _ _ _ _ (balanced_corners a b) harity, arguments_corners]
  exact yields_over ⟨ctx, _, _⟩ f hnone hsize

/-! ## Labels among values -/

section

variable {t : String} {before after : List Value}

theorem numbers_label (ht : numberOf? t.toList = none) :
    numbers (before ++ .text t :: after) = numbers (before ++ .empty :: after) := by
  have hlabel : (Value.text t).number? = none := ht
  have hempty : Value.empty.number? = none := rfl
  rw [numbers, numbers, List.filterMap_append, List.filterMap_append, List.filterMap_cons_none hlabel,
    List.filterMap_cons_none hempty]

theorem Aggregator.exists_ofValues_label (ht : numberOf? t.toList = none) {f : Aggregator} (hcount : f ≠ .count)
    (hconcatenate : f ≠ .concatenate) :
    ∃ x, f.ofValues (before ++ .empty :: after) = .number x ∧
      f.ofValues (before ++ .text t :: after) = .number x := by
  cases f with
  | sum =>
    have hzero : (Value.text t).toNumber = Value.empty.toNumber := by
      rw [Value.toNumber, numberOf, ht]
      rfl
    exact ⟨_, rfl, by simp only [ofValues, sumOf, List.map_append, List.map_cons, hzero]⟩
  | average => exact ⟨_, rfl, by simp only [ofValues, averageOf, numbers_label ht]⟩
  | max => exact ⟨_, rfl, by simp only [ofValues, maxOf, numbers_label ht]⟩
  | min => exact ⟨_, rfl, by simp only [ofValues, minOf, numbers_label ht]⟩
  | count => exact absurd rfl hcount
  | concatenate => exact absurd rfl hconcatenate

theorem whole?_countOf_label (t : String) (hlength : before.length + after.length < 2 ^ 52) :
    ∃ n : Nat, Number.whole? (countOf (before ++ .empty :: after)) = some (n : Int) ∧
      Number.whole? (countOf (before ++ .text t :: after)) = some ((n + 1 : Nat) : Int) := by
  have hempty : (before ++ .empty :: after).filter (fun v => !v.isEmpty) =
      before.filter (fun v => !v.isEmpty) ++ after.filter fun v => !v.isEmpty := by
    rw [List.filter_append, List.filter_cons_of_neg (by decide)]
  have hlabel : (before ++ .text t :: after).filter (fun v => !v.isEmpty) =
      before.filter (fun v => !v.isEmpty) ++ .text t :: after.filter fun v => !v.isEmpty := by
    rw [List.filter_append, List.filter_cons_of_pos rfl]
  have hbefore := List.length_filter_le (fun v : Value => !v.isEmpty) before
  have hafter := List.length_filter_le (fun v : Value => !v.isEmpty) after
  refine ⟨(before.filter fun v => !v.isEmpty).length + (after.filter fun v => !v.isEmpty).length, ?_, ?_⟩
  · rw [countOf, hempty, List.length_append, Number.whole?_ofNat (by omega)]
  · rw [countOf, hlabel, List.length_append, List.length_cons, ← Nat.add_assoc, Number.whole?_ofNat (by omega)]

end

end Spreadsheet.Formula

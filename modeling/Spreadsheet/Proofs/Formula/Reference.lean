import Spreadsheet.Proofs.Formula.Cell
import Spreadsheet.Proofs.Formula.Shapes

/-
  Formulas that refer to one cell, and formulas that refer to none.

  A reference is evaluated by a look at its cell, with one cell more in
  progress. What it comes to is then known if the cell has a value in the cache,
  holds nothing, or holds a formula whose value hangs on no cell.
-/

namespace Spreadsheet.Formula

variable {ctx : Context}

/-- The formula that refers to a cell. -/
def referenceTo (a : Address) : List Char := formulaMark :: a.name

theorem levels_of_isAddressForm {e : List Char} (he : isAddressForm e = true)
    (f : String → List Char → Run Value) (n : Nat) :
    levels ctx f (n + 1) e = (⟨ctx, levels ctx f n, f⟩ : Scope).cell (String.ofList e) := by
  calc levels ctx f (n + 1) e
      = (⟨ctx, levels ctx f n, f⟩ : Scope).shape (Shape.ofExpr (Text.trim e)) := rfl
    _ = (⟨ctx, levels ctx f n, f⟩ : Scope).shape (.reference e) := by
      rw [trim_of_isAddressForm he, Shape.ofExpr_address he]
    _ = (⟨ctx, levels ctx f n, f⟩ : Scope).cell (String.ofList e) := rfl

theorem levels_name (f : String → List Char → Run Value) (n : Nat) (a : Address) :
    levels ctx f (n + 1) a.name = (⟨ctx, levels ctx f n, f⟩ : Scope).cell a.label :=
  levels_of_isAddressForm (isAddressForm_name a) f n

theorem levels_referenceTo (f : String → List Char → Run Value) (a : Address) :
    levels ctx f levelLimit (exprOf (referenceTo a)) =
      (⟨ctx, levels ctx f (levelLimit - 1), f⟩ : Scope).cell a.label := by
  rw [referenceTo, exprOf_of_isAddressForm (isAddressForm_name a)]
  exact levels_name f (levelLimit - 1) a

theorem cellFormula_referenceTo (n : Nat) {path : List String} {a : Address} (b : Address) {m : Memory}
    (hv : m.cache[a.label]? = none) (hout : a.label ∉ path) :
    cellFormula ctx (n + 1) path a.label (referenceTo b) m =
      match (⟨ctx, levels ctx (cellFormula ctx n (path ++ [a.label])) (levelLimit - 1),
        cellFormula ctx n (path ++ [a.label])⟩ : Scope).cell b.label m with
      | .ok v m' => .ok v (m'.insert a.label v)
      | .error fault m' => .error fault m' := by
  have henter : cellFormula ctx (n + 1) path a.label (referenceTo b) m = _ :=
    cellFormula_succ_of_free (isAddressForm_name a) (referenceTo b) n hv hout
  rw [henter, levels_referenceTo]
  rfl

/-- A visit of a cell after the one it refers to finds its value in the
cache. -/
theorem evalCell_referenceTo {ev : Evaluator} (hpath : ev.path = []) (hroom : 0 < ctx.options.maxDepth)
    {a b : Address} {v : Value} (hb : ev.cache[b.label]? = some v) (ha : ev.cache[a.label]? = none) :
    ev.evalCell ctx a.label (String.ofList (referenceTo b)) =
      (.ok v, { ev with toMemory := ev.toMemory.insert a.label v }) := by
  obtain ⟨n, hn⟩ := Nat.exists_eq_add_one.2 hroom
  have hrun : ev.formulaOf ctx a.label (referenceTo b) ev.toMemory =
      .ok v (ev.toMemory.insert a.label v) := by
    unfold Evaluator.formulaOf
    rw [hpath, hn, List.length_nil, Nat.sub_zero, cellFormula_referenceTo n b ha List.not_mem_nil,
      Scope.cell_apply, hb]
  unfold Evaluator.evalCell Evaluator.run
  rw [String.toList_ofList, hrun]

theorem evaluate_referenceTo {a : Address} (h : ctx.formulaAt? a.label = none) :
    evaluate ctx (String.ofList (referenceTo a)) = .ok (ctx.literalAt a.label) := by
  refine fst_run_eq_ok.2 ⟨∅, ?_⟩
  rw [String.toList_ofList]
  show levels ctx (Evaluator.fresh.formulaOf ctx) levelLimit (exprOf (referenceTo a)) ∅ = _
  rw [levels_referenceTo]
  exact Scope.cell_of_literal _ h (by simp)

theorem evaluateAt_referenceTo (hroom : 0 < ctx.options.maxDepth) (a : Address) {b : Address}
    (hb : ctx.resolve b.label = none) :
    evaluateAt ctx a.label (String.ofList (referenceTo b)) = .ok .empty := by
  obtain ⟨n, hn⟩ := Nat.exists_eq_add_one.2 hroom
  refine evaluateAt_eq_ok.2 ⟨(∅ : Memory).insert a.label .empty, ?_⟩
  rw [String.toList_ofList, hn, cellFormula_referenceTo n b (by simp) List.not_mem_nil, Scope.cell_apply]
  simp [Context.formulaAt?, Context.literalAt, hb]

/-! ## Constants -/

/-- Whether a formula has the value without a look at any cell. It may ask the
clock. -/
def Constant (ctx : Context) (formula : List Char) (v : Value) : Prop :=
  ∀ f m, ∃ m', levels ctx f levelLimit (exprOf formula) m = .ok v m' ∧ m'.cache = m.cache

namespace Constant

variable {formula : List Char} {v : Value} (h : Constant ctx formula v)

include h

theorem cellFormula (n : Nat) {path : List String} {a : Address} {m : Memory}
    (hv : m.cache[a.label]? = none) (hout : a.label ∉ path) :
    ∃ m' : Memory, Formula.cellFormula ctx (n + 1) path a.label formula m = .ok v (m'.insert a.label v) ∧
      m'.cache = m.cache := by
  obtain ⟨m', hrun, hcache⟩ := h (Formula.cellFormula ctx n (path ++ [a.label])) m
  have henter : Formula.cellFormula ctx (n + 1) path a.label formula m = _ :=
    cellFormula_succ_of_free (isAddressForm_name a) formula n hv hout
  exact ⟨m', by rw [henter, ← Address.label, hrun], hcache⟩

theorem evalCell (hroom : 0 < ctx.options.maxDepth) (a : Address) :
    ∃ ev, Evaluator.fresh.evalCell ctx a.label (String.ofList formula) = (.ok v, ev) ∧ ev.path = [] ∧
      ev.cache = (∅ : Cache).insert a.label v := by
  obtain ⟨n, hn⟩ := Nat.exists_eq_add_one.2 hroom
  have hout : a.label ∉ ([] : List String) := List.not_mem_nil
  obtain ⟨m', hrun, hcache⟩ := h.cellFormula n (m := ∅) (by simp) hout
  have hvisit : Evaluator.fresh.formulaOf ctx a.label formula ∅ = .ok v (m'.insert a.label v) := by
    show Formula.cellFormula ctx ctx.options.maxDepth [] a.label formula ∅ = _
    rw [hn, hrun]
  refine ⟨{ Evaluator.fresh with toMemory := m'.insert a.label v }, ?_, rfl, ?_⟩
  · unfold Evaluator.evalCell Evaluator.run
    rw [String.toList_ofList, show Evaluator.fresh.toMemory = ∅ from rfl, hvisit]
  · show m'.cache.insert a.label v = _
    rw [hcache, Memory.cache_empty]

/-- A reference to another cell with the formula has its value. -/
theorem evaluateAt_referenceTo (hroom : 1 < ctx.options.maxDepth) {a b : Address} (hab : a ≠ b)
    (hformula : ctx.formulaAt? b.label = some formula) :
    evaluateAt ctx a.label (String.ofList (referenceTo b)) = .ok v := by
  obtain ⟨n, hn⟩ : ∃ n, ctx.options.maxDepth = n + 2 := ⟨ctx.options.maxDepth - 2, by omega⟩
  have hout : b.label ∉ [] ++ [a.label] := by
    intro hmem
    exact hab (Address.label_injective (List.mem_singleton.1 hmem)).symm
  obtain ⟨m', hinside, -⟩ := h.cellFormula n (m := ∅) (by simp) hout
  have hlook : (⟨ctx, levels ctx (Formula.cellFormula ctx (n + 1) ([] ++ [a.label])) (levelLimit - 1),
      Formula.cellFormula ctx (n + 1) ([] ++ [a.label])⟩ : Scope).cell b.label ∅ =
        .ok v (m'.insert b.label v) := by
    rw [Scope.cell_apply]
    simp only [hformula, hinside]
    simp
  refine evaluateAt_eq_ok.2 ⟨(m'.insert b.label v).insert a.label v, ?_⟩
  rw [String.toList_ofList, hn, cellFormula_referenceTo (n + 1) b (by simp) List.not_mem_nil, hlook]

end Constant

end Spreadsheet.Formula

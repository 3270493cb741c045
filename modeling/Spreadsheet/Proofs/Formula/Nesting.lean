import Spreadsheet.Proofs.Formula.Reference

/-
  The two limits on nesting.

  Parentheses are counted within one formula and formula cells across formulas.
  A row of cells, each of which refers to the next in parentheses of its own,
  meets both limits: the count of parentheses starts anew in every cell and the
  count of cells goes on. So such a row has a value exactly if there are no more
  cells than may nest and no cell has more parentheses than a formula may have
  (`evaluate_row`), however the two are combined.
-/

namespace Spreadsheet.Formula

/-! ## Parentheses -/

def enclosed (p : Nat) (t : List Char) : List Char := List.replicate p '(' ++ t ++ List.replicate p ')'

theorem enclosed_zero (t : List Char) : enclosed 0 t = t := List.append_nil t

theorem enclosed_succ (p : Nat) (t : List Char) : enclosed (p + 1) t = grouped (enclosed p t) := by
  rw [enclosed, List.replicate_succ, List.replicate_succ']
  simp [enclosed, grouped]

theorem enclosed_add (p q : Nat) (t : List Char) : enclosed (p + q) t = enclosed p (enclosed q t) := by
  induction p with
  | zero => rw [Nat.zero_add, enclosed_zero]
  | succ p ih => rw [Nat.succ_add, enclosed_succ, ih, enclosed_succ]

section

variable {t : List Char} (hbalanced : Balanced t) (htrim : Text.trim t = t)

include hbalanced in
theorem Balanced.enclosed (p : Nat) : Balanced (enclosed p t) := by
  induction p with
  | zero => exact (enclosed_zero t).symm ▸ hbalanced
  | succ p ih => exact (enclosed_succ p t).symm ▸ ih.grouped

include htrim in
theorem trim_enclosed (p : Nat) : Text.trim (enclosed p t) = enclosed p t := by
  cases p with
  | zero => rw [enclosed_zero, htrim]
  | succ p => rw [enclosed_succ, trim_grouped]

variable (ctx : Context) (f : String → List Char → Run Value)

include hbalanced htrim in
theorem levels_enclosed (p n : Nat) : levels ctx f (p + n) (enclosed p t) = levels ctx f n t := by
  induction p with
  | zero => rw [Nat.zero_add, enclosed_zero]
  | succ p ih =>
    calc levels ctx f (p + 1 + n) (enclosed (p + 1) t)
        = (⟨ctx, levels ctx f (p + n), f⟩ : Scope).shape
            (Shape.ofExpr (Text.trim (grouped (enclosed p t)))) := by
          rw [enclosed_succ, Nat.add_right_comm]
          rfl
      _ = levels ctx f (p + n) (Text.trim (enclosed p t)) := by
          rw [trim_grouped, Shape.ofExpr_grouped (hbalanced.enclosed p)]
          rfl
      _ = levels ctx f n t := by rw [trim_enclosed htrim, ih]

include hbalanced htrim in
theorem levels_enclosed_of_le {p : Nat} (hp : levelLimit ≤ p) :
    levels ctx f levelLimit (enclosed p t) =
      throw (.nestedTooDeep levelLimit (String.ofList (enclosed (p - levelLimit) t))) := by
  have hsplit : enclosed p t = enclosed levelLimit (enclosed (p - levelLimit) t) := by
    rw [← enclosed_add, Nat.add_sub_of_le hp]
  rw [hsplit]
  exact levels_enclosed (hbalanced.enclosed _) (trim_enclosed htrim _) ctx f levelLimit 0

end

/-! ## Rows of references -/

/-- Formula cells in a row, each of which holds a reference to the next one in
parentheses, the last to a cell that holds a number and no formula. -/
structure Row (ctx : Context) (m : Nat) (name : Nat → List Char) (parens : Nat → Nat) (x : Float) :
    Prop where
  address : ∀ i ≤ m, isAddressForm (name i) = true
  distinct : ∀ i < m, ∀ j < m, name i = name j → i = j
  formula : ∀ i < m, ctx.resolve (String.ofList (name i)) =
    some (String.ofList (formulaMark :: enclosed (parens i) (name (i + 1))))
  noFormula : ctx.formulaAt? (String.ofList (name m)) = none
  number : ctx.literalAt (String.ofList (name m)) = .number x

/-- The cells of a row before one of them, as they are in progress when it is
looked at. -/
def before (name : Nat → List Char) (i : Nat) : List String :=
  (List.range i).map fun j => String.ofList (name j)

theorem before_succ (name : Nat → List Char) (i : Nat) :
    before name (i + 1) = before name i ++ [String.ofList (name i)] := by
  simp [before, List.range_succ]

/-- Whether a result is the number if a condition holds, and else a fault of one
of the two limits. -/
def Comes (c : Prop) (x : Float) : EStateM.Result Fault Memory Value → Prop
  | .ok v _ => c ∧ v = .number x
  | .error fault _ => ¬ c ∧ (fault.kind = .circularReference ∨ fault.kind = .parse)

namespace Comes

variable {c : Prop} {x : Float}

theorem insert (key : String) : ∀ {r : EStateM.Result Fault Memory Value}, Comes c x r →
    Comes c x (match r with
      | .ok v m => .ok v (m.insert key v)
      | .error fault m => .error fault m)
  | .ok _ _, h => h
  | .error _ _, h => h

theorem run {ev : Evaluator} {r : Run Value} (h : Comes c x (r ev.toMemory)) :
    ((ev.run r).1 = .ok (.number x) ↔ c) ∧
      ((ev.run r).1 = .ok (.number x) ∨
        ∃ fault, (ev.run r).1 = .error fault ∧ (fault.kind = .circularReference ∨ fault.kind = .parse)) := by
  unfold Evaluator.run
  revert h
  cases r ev.toMemory with
  | ok v m =>
    rintro ⟨hc, rfl⟩
    exact ⟨iff_of_true rfl hc, .inl rfl⟩
  | error fault m =>
    rintro ⟨hc, hkind⟩
    exact ⟨iff_of_false (fun heq => by cases heq) hc, .inr ⟨fault, rfl, hkind⟩⟩

end Comes

namespace Row

variable {ctx : Context} {m : Nat} {name : Nat → List Char} {parens : Nat → Nat} {x : Float}
  (h : Row ctx m name parens x)

include h

theorem balanced {i : Nat} (hi : i ≤ m) : Balanced (name i) :=
  .of_plain fun _ hc => isPlain_of_isAtomChar (isAtomChar_of_isAddressForm (h.address i hi) _ hc)

theorem formulaAt? {i : Nat} (hi : i < m) : ctx.formulaAt? (String.ofList (name i)) =
    some (formulaMark :: enclosed (parens i) (name (i + 1))) := by
  have hname := h.address (i + 1) hi
  have htrim : Text.trim (formulaMark :: enclosed (parens i) (name (i + 1))) =
      formulaMark :: enclosed (parens i) (name (i + 1)) := by
    refine Text.trim_eq_self_of_forall fun c hc => ?_
    simp only [enclosed, List.mem_cons, List.mem_append, List.mem_replicate] at hc
    rcases hc with rfl | (⟨-, rfl⟩ | hc) | ⟨-, rfl⟩
    · rfl
    · rfl
    · exact isBlank_of_isAddressForm hname c hc
    · rfl
  simp [Context.formulaAt?, h.formula i hi, htrim]

theorem exprOf_formula {i : Nat} (hi : i < m) :
    exprOf (formulaMark :: enclosed (parens i) (name (i + 1))) = enclosed (parens i) (name (i + 1)) := by
  have hname := h.address (i + 1) hi
  have hne : enclosed (parens i) (name (i + 1)) ≠ [] := by
    intro hnil
    have hempty : name (i + 1) = [] := by simp_all [enclosed]
    rw [hempty] at hname
    cases hname
  exact ((h.balanced hi).enclosed _).exprOf hne (trim_enclosed (trim_of_isAddressForm hname) _)

theorem notMem_before {i : Nat} (hi : i < m) : String.ofList (name i) ∉ before name i := by
  intro hmem
  obtain ⟨j, hj, hname⟩ := List.mem_map.1 hmem
  have hj := List.mem_range.1 hj
  have hij := h.distinct j (by omega) i hi (String.ofList_injective hname)
  omega

/-- A look at a cell of the row, with the cells before it in progress. -/
theorem comes_cell (e : List Char → Run Value) (room : Nat) {i : Nat} (hi : i ≤ m) :
    Comes (m ≤ i + room ∧ ∀ j, i ≤ j → j < m → parens j < levelLimit) x
      ((⟨ctx, e, cellFormula ctx room (before name i)⟩ : Scope).cell (String.ofList (name i)) ∅) := by
  -- on the number of cells from this one to the end of the row
  induction hleft : m - i generalizing e room i with
  | zero =>
    obtain rfl : i = m := by omega
    rw [Scope.cell_apply]
    simp only [h.noFormula, h.number, Memory.cache_empty, Std.HashMap.getElem?_empty]
    exact ⟨⟨by omega, fun j hj hjm => absurd hj (by omega)⟩, rfl⟩
  | succ left ih =>
    have him : i < m := by omega
    have hname := h.address i hi
    have hnext := h.address (i + 1) him
    rw [cell_of_formula hname _ e room (h.formulaAt? him)]
    cases room with
    | zero =>
      rw [cellFormula_zero_of_free hname _ (by simp) (h.notMem_before him)]
      exact ⟨fun hroom => absurd hroom.1 (by omega), .inl rfl⟩
    | succ room =>
      rw [cellFormula_succ_of_free hname _ room (by simp) (h.notMem_before him), h.exprOf_formula him,
        ← before_succ]
      by_cases hp : parens i < levelLimit
      · obtain ⟨n, hn⟩ : ∃ n, levelLimit = parens i + (n + 1) := ⟨levelLimit - parens i - 1, by omega⟩
        have hlevels : levels ctx (cellFormula ctx room (before name (i + 1))) levelLimit
            (enclosed (parens i) (name (i + 1))) =
            (⟨ctx, levels ctx (cellFormula ctx room (before name (i + 1))) n,
              cellFormula ctx room (before name (i + 1))⟩ : Scope).cell (String.ofList (name (i + 1))) := by
          rw [hn, levels_enclosed (h.balanced him) (trim_of_isAddressForm hnext), levels_of_isAddressForm hnext]
        have hcomes := ih (levels ctx (cellFormula ctx room (before name (i + 1))) n) room him (by omega)
        -- this cell takes up no more than its room, and its parentheses are within the limit
        have hsame : (m ≤ i + 1 + room ∧ ∀ j, i + 1 ≤ j → j < m → parens j < levelLimit) ↔
            (m ≤ i + (room + 1) ∧ ∀ j, i ≤ j → j < m → parens j < levelLimit) := by
          refine and_congr (by omega) ⟨fun hrest j hj hjm => ?_, fun hall j hj => hall j (by omega)⟩
          rcases Nat.eq_or_lt_of_le hj with rfl | hj
          · exact hp
          · exact hrest j hj hjm
        rw [hlevels]
        rw [hsame] at hcomes
        exact hcomes.insert (String.ofList (name i))
      · rw [levels_enclosed_of_le (h.balanced him) (trim_of_isAddressForm hnext) _ _ (Nat.not_lt.1 hp)]
        exact ⟨fun hall => hp (hall.2 i (Nat.le_refl i) him), .inr rfl⟩

end Row

/-- The two limits on nesting are exact, and neither hangs on the other. A
reference to the first cell of a row comes to the number at its end exactly if
there are no more formula cells in the row than may nest and none of them has
more than 127 pairs of parentheses; else it fails with a circular reference, as
too many cells are called, or with a formula that cannot be parsed. -/
theorem evaluate_row {ctx : Context} {m : Nat} {name : Nat → List Char} {parens : Nat → Nat} {x : Float}
    (h : Row ctx m name parens x) :
    (evaluate ctx ("=" ++ String.ofList (name 0)) = .ok (.number x) ↔
      m ≤ ctx.options.maxDepth ∧ ∀ i < m, parens i ≤ 127) ∧
    (evaluate ctx ("=" ++ String.ofList (name 0)) = .ok (.number x) ∨
      ∃ fault, evaluate ctx ("=" ++ String.ofList (name 0)) = .error fault ∧
        (fault.kind = .circularReference ∨ fault.kind = .parse)) := by
  have hname := h.address 0 (Nat.zero_le m)
  have hlist : ("=" ++ String.ofList (name 0)).toList = formulaMark :: name 0 := by simp [formulaMark]
  have hcomes := h.comes_cell (levels ctx (cellFormula ctx ctx.options.maxDepth []) (levelLimit - 1))
    ctx.options.maxDepth (Nat.zero_le m)
  have hrun : evaluate ctx ("=" ++ String.ofList (name 0)) = (Evaluator.fresh.run
      ((⟨ctx, levels ctx (cellFormula ctx ctx.options.maxDepth []) (levelLimit - 1),
        cellFormula ctx ctx.options.maxDepth []⟩ : Scope).cell (String.ofList (name 0)))).1 := by
    rw [← levels_of_isAddressForm hname, evaluate, Evaluator.evalFormula, hlist, exprOf_of_isAddressForm hname]
    rfl
  have hlimits : (m ≤ 0 + ctx.options.maxDepth ∧ ∀ j, 0 ≤ j → j < m → parens j < levelLimit) ↔
      m ≤ ctx.options.maxDepth ∧ ∀ i < m, parens i ≤ 127 := by
    refine and_congr (by omega) (forall_congr' fun j => ?_)
    simp only [Nat.zero_le, true_implies, levelLimit]
    exact imp_congr_right fun _ => by omega
  rw [hrun, ← hlimits]
  exact hcomes.run

/-- The names in a row of two cells and a number. -/
def twoNames : Nat → List Char
  | 0 => ['A', '1']
  | 1 => ['B', '1']
  | _ => ['C', '1']

/-- The first of the cells with as many parentheses as a formula may have, and room
for no more than the two. -/
def Context.brimful : Context where
  resolve address :=
    if address = "A1" then some (String.ofList (formulaMark :: enclosed 127 ['B', '1']))
    else if address = "B1" then some "=C1"
    else if address = "C1" then some "7"
    else none
  bounds := none
  clock := Moment.epoch
  options := ⟨.leftToRight, 2, 0⟩

theorem row_brimful : Row .brimful 2 twoNames (fun i => if i = 0 then 127 else 0) (numberOf ['7']) where
  address := by decide
  distinct := by decide
  formula := by decide +kernel
  noFormula := by decide +kernel
  number := by rfl

theorem evaluate_row_brimful :
    Row .brimful 2 twoNames (fun i => if i = 0 then 127 else 0) (numberOf ['7']) ∧
      evaluate .brimful "=A1" = .ok (.number (numberOf ['7'])) := by
  obtain ⟨hvalue, -⟩ := evaluate_row row_brimful
  exact ⟨row_brimful, hvalue.2 (by decide)⟩

end Spreadsheet.Formula

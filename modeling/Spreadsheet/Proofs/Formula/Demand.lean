import Spreadsheet.Proofs.Address.Range
import Spreadsheet.Proofs.Formula.Cell
import Spreadsheet.Proofs.Formula.Parts

/-
  Expressions that need cells on a cycle.

  `Demands S e`: whatever comes of it, evaluating `e` asks for the value of some
  cell of `S`. `Cyclic S`: the formula of every cell of `S` demands a cell of
  `S`. No cell of such a set is ever put into the cache: a value for it would
  need the value of another one before. `cellFormula_traps` is by induction on the
  room for nested cells, so it makes no difference what the cycles look like.
-/

namespace Spreadsheet.Formula

/-- Whether the value of an expression needs the value of a cell of the set. -/
inductive Demands (S : Address → Prop) : List Char → Prop
  | reference {e name : List Char} {a : Address} : Shape.ofExpr (Text.trim e) = .reference name →
      Address.ofName name = .ok a → S a → Demands S e
  | group {e inside : List Char} : Shape.ofExpr (Text.trim e) = .group inside →
      Demands S inside → Demands S e
  | left {e l r : List Char} {op : Comparison} : Shape.ofExpr (Text.trim e) = .comparison l op r →
      Demands S l → Demands S e
  | right {e l r : List Char} {op : Comparison} : Shape.ofExpr (Text.trim e) = .comparison l op r →
      Demands S r → Demands S e
  | operand {e operand : List Char} {c : Chain} : Shape.ofExpr (Text.trim e) = .chain c →
      operand ∈ c.operands → Demands S operand → Demands S e
  | negated {e operand : List Char} : Shape.ofExpr (Text.trim e) = .negated operand →
      Demands S operand → Demands S e
  | affirmed {e operand : List Char} : Shape.ofExpr (Text.trim e) = .affirmed operand →
      Demands S operand → Demands S e
  | argument {e name args arg : List Char} {f : Aggregator} :
      Shape.ofExpr (Text.trim e) = .call name args → Builtin.ofName? name = some f.builtin →
      arg ∈ arguments args → isRangeForm (Text.trim arg) = false → Demands S (Text.trim arg) →
      Demands S e
  | range {e name args arg : List Char} {f : Aggregator} {range : Range} {a : Address} :
      Shape.ofExpr (Text.trim e) = .call name args → Builtin.ofName? name = some f.builtin →
      arg ∈ arguments args → isRangeForm (Text.trim arg) = true →
      Range.ofText (Text.trim arg) = .ok range → range.contains a = true → S a → Demands S e

/-- A set of formula cells in the grid, each of which demands one of them. -/
structure Cyclic (ctx : Context) (S : Address → Prop) : Prop where
  inGrid : ∀ a, S a → ∀ grid ∈ ctx.bounds, a.row < grid.1 ∧ a.col < grid.2
  formula : ∀ (name : List Char) a, Address.ofName name = .ok a → S a →
    ∃ formula, ctx.formulaAt? (String.ofList name) = some formula ∧ Demands S (exprOf formula)

/-- Whether the cache holds nothing under a name of a cell of the set. -/
def Memory.Clear (S : Address → Prop) (m : Memory) : Prop :=
  ∀ (name : List Char) a, Address.ofName name = .ok a → S a → m.cache[String.ofList name]? = none

def Keeps (S : Address → Prop) {α : Type} (x : Run α) : Prop :=
  ∀ m : Memory, m.Clear S → match x m with
    | .ok _ m' | .error _ m' => m'.Clear S

/-- Whether a computation has no value on a clear cache, and keeps it clear. -/
def Fails (S : Address → Prop) {α : Type} (x : Run α) : Prop :=
  ∀ m : Memory, m.Clear S → ∃ fault m', x m = .error fault m' ∧ m'.Clear S

variable {ctx : Context} {S : Address → Prop}

theorem keeps_pure {α : Type} (a : α) : Keeps S (pure a : Run α) := fun _ hm => hm

theorem Keeps.andThen {α β : Type} {x : Run α} {f : α → Run β} (hx : Keeps S x)
    (hf : ∀ a, Keeps S (f a)) : Keeps S (x >>= f) := by
  intro m hm
  have hx := hx m hm
  rw [bind_apply]
  cases hxm : x m with
  | error fault m' =>
    rw [hxm] at hx
    exact hx
  | ok a m' =>
    rw [hxm] at hx
    exact hf a m' hx

theorem keeps_sequential (S : Address → Prop) : Sequential fun _ x _ => Keeps S x where
  pure := keeps_pure
  throw _ := fun _ hm => hm
  bind := Keeps.andThen

theorem fails_throw {α : Type} (fault : Fault) : Fails S (throw fault : Run α) :=
  fun m hm => ⟨fault, m, rfl, hm⟩

theorem Fails.keeps {α : Type} {x : Run α} (h : Fails S x) : Keeps S x := by
  intro m hm
  obtain ⟨fault, m', hx, hm'⟩ := h m hm
  rw [hx]
  exact hm'

theorem Fails.bind {α β : Type} {x : Run α} (h : Fails S x) (f : α → Run β) : Fails S (x >>= f) := by
  intro m hm
  obtain ⟨fault, m', hx, hm'⟩ := h m hm
  exact ⟨fault, m', by rw [bind_apply, hx], hm'⟩

theorem Keeps.bind {α β : Type} {x : Run α} {f : α → Run β} (h : Keeps S x)
    (hf : ∀ a, Fails S (f a)) : Fails S (x >>= f) := by
  intro m hm
  have hx := h m hm
  rw [bind_apply]
  cases hxm : x m with
  | error fault m' =>
    rw [hxm] at hx
    exact ⟨fault, m', rfl, hx⟩
  | ok a m' =>
    rw [hxm] at hx
    exact hf a m' hx

theorem fails_mapM {α β : Type} {f : α → Run β} {xs : List α} (hkeeps : ∀ x ∈ xs, Keeps S (f x))
    {x : α} (hx : x ∈ xs) (hfails : Fails S (f x)) : Fails S (xs.mapM f) := by
  induction xs with
  | nil => cases hx
  | cons y ys ih =>
    rw [List.mapM_cons]
    rcases List.mem_cons.1 hx with rfl | hx
    · exact hfails.bind _
    · refine (hkeeps y List.mem_cons_self).bind fun b => ?_
      exact (ih (fun z hz => hkeeps z (List.mem_cons_of_mem y hz)) hx).bind _

theorem keeps_now (ctx : Context) : Keeps S ctx.now := fun _ hm => hm

theorem Keeps.run {α : Type} {x : Run α} (h : Keeps S x) {ev : Evaluator} (hev : ev.toMemory.Clear S) :
    (ev.run x).2.toMemory.Clear S := by
  have hx := h ev.toMemory hev
  unfold Evaluator.run
  cases hxm : x ev.toMemory with
  | ok a m =>
    rw [hxm] at hx
    exact hx
  | error fault m =>
    rw [hxm] at hx
    exact hx

theorem Fails.run {α : Type} {x : Run α} (h : Fails S x) {ev : Evaluator} (hev : ev.toMemory.Clear S) :
    ∃ fault, (ev.run x).1 = .error fault := by
  obtain ⟨fault, m, hx, -⟩ := h ev.toMemory hev
  unfold Evaluator.run
  rw [hx]
  exact ⟨fault, rfl⟩

/-! ## Expressions -/

theorem fails_of_shape {f : String → List Char → Run Value} {e : List Char} {shape : Shape}
    (hshape : Shape.ofExpr (Text.trim e) = shape)
    (hfails : ∀ n, Fails S ((⟨ctx, levels ctx f n, f⟩ : Scope).shape shape)) (n : Nat) :
    Fails S (levels ctx f n e) := by
  cases n with
  | zero => exact fails_throw _
  | succ n =>
    rw [levels, hshape]
    exact hfails n

/-- A way to evaluate formulas of cells that keeps caches clear, and that has
no value for the cells of the set. -/
structure Traps (ctx : Context) (S : Address → Prop) (f : String → List Char → Run Value) :
    Prop where
  keeps : ∀ expr name, isAddressForm name = true →
    Keeps S ((⟨ctx, expr, f⟩ : Scope).cell (String.ofList name))
  fails : ∀ expr name a, isAddressForm name = true → Address.ofName name = .ok a → S a →
    Fails S ((⟨ctx, expr, f⟩ : Scope).cell (String.ofList name))

namespace Traps

variable {f : String → List Char → Run Value} (h : Traps ctx S f)

include h

theorem keeps_levels (n : Nat) (e : List Char) : Keeps S (levels ctx f n e) :=
  levels_alike_of_cell (g := f) (keeps_sequential S) (keeps_now ctx) (fun expr _ => h.keeps expr) n e

theorem keeps_expand (n : Nat) (arg : List Char) :
    Keeps S ((⟨ctx, levels ctx f n, f⟩ : Scope).expand arg) :=
  Scope.expand_alike (t := ⟨ctx, levels ctx f n, f⟩) (keeps_sequential S) (h.keeps_levels n _)
    (fun _ _ _ => Scope.rangeCells_alike (t := ⟨ctx, levels ctx f n, f⟩) (keeps_sequential S) _ rfl rfl
      (fun a _ => h.keeps _ a.name (isAddressForm_name a)))

theorem fails_rangeCells (hS : Cyclic ctx S) (n : Nat) (text : List Char) {range : Range}
    {a : Address} (ha : range.contains a = true) (haS : S a) :
    Fails S ((⟨ctx, levels ctx f n, f⟩ : Scope).rangeCells text range) := by
  have hmem : a ∈ range.cellsIn ctx.bounds := Range.mem_cellsIn.2 ⟨ha, Address.isIn_iff.2 (hS.inGrid a haS)⟩
  rw [Scope.rangeCells_eq]
  split
  · exact fails_throw _
  · exact fails_mapM (fun b _ => h.keeps _ b.name (isAddressForm_name b)) hmem
      (h.fails _ a.name a (isAddressForm_name a) (Address.ofName_name a) haS)

theorem fails_call {n : Nat} {name args arg : List Char} {aggregator : Aggregator}
    (hname : Builtin.ofName? name = some aggregator.builtin) (harg : arg ∈ arguments args)
    (hfails : Fails S ((⟨ctx, levels ctx f n, f⟩ : Scope).expand arg)) :
    Fails S ((⟨ctx, levels ctx f n, f⟩ : Scope).call name args) := by
  have hall : Fails S ((⟨ctx, levels ctx f n, f⟩ : Scope).expandAll (arguments args)) :=
    (fails_mapM (fun arg _ => h.keeps_expand n arg) harg hfails).bind _
  unfold Scope.call
  rw [hname]
  dsimp only
  split
  · exact fails_throw _
  · rw [Scope.apply_aggregator]
    exact hall.bind _

/-- What demands a cell of the set has no value. -/
theorem fails_levels (hS : Cyclic ctx S) {e : List Char} (he : Demands S e) :
    ∀ n, Fails S (levels ctx f n e) := by
  induction he with
  | reference hshape hname ha =>
    exact fails_of_shape hshape fun n =>
      h.fails (levels ctx f n) _ _ (isAddressForm_of_reference hshape) hname ha
  | group hshape _ ih => exact fails_of_shape hshape ih
  | left hshape _ ih => exact fails_of_shape hshape fun n => (ih n).bind _
  | right hshape _ ih =>
    exact fails_of_shape hshape fun n => (h.keeps_levels n _).bind fun _ => (ih n).bind _
  | @operand e operand c hshape hmem _ ih =>
    refine fails_of_shape hshape fun n => ?_
    have hnumber : ∀ e, Keeps S ((⟨ctx, levels ctx f n, f⟩ : Scope).number e) := fun e =>
      (h.keeps_levels n e).andThen fun _ => keeps_pure _
    have hfails : Fails S ((⟨ctx, levels ctx f n, f⟩ : Scope).number operand) := (ih n).bind _
    obtain ⟨first, links⟩ := c
    -- the operands before the one that fails keep the cache clear
    rcases List.mem_cons.1 hmem with rfl | hlink
    · exact hfails.bind _
    · obtain ⟨link, hin, rfl⟩ := List.mem_map.1 hlink
      refine (hnumber first).bind fun x => Fails.bind (fails_mapM (fun link' _ => ?_) hin ?_) _
      · exact (hnumber link'.2).andThen fun _ => keeps_pure _
      · exact hfails.bind _
  | negated hshape _ ih => exact fails_of_shape hshape fun n => ((ih n).bind _).bind _
  | affirmed hshape _ ih => exact fails_of_shape hshape fun n => ((ih n).bind _).bind _
  | argument hshape hname harg hform _ ih =>
    refine fails_of_shape hshape fun n => h.fails_call hname harg ?_
    simp only [Scope.expand, hform, Bool.false_eq_true, if_false]
    exact (ih n).bind _
  | range hshape hname harg hform hrange ha haS =>
    refine fails_of_shape hshape fun n => h.fails_call hname harg ?_
    simp only [Scope.expand, hform, if_true, hrange]
    exact h.fails_rangeCells hS n _ ha haS

end Traps

/-! ## Cells -/

theorem Memory.Clear.insert {m : Memory} (hm : m.Clear S) {name : List Char}
    (hname : ∀ a, Address.ofName name = .ok a → ¬ S a) (v : Value) :
    (m.insert (String.ofList name) v).Clear S := by
  intro other a ha haS
  rw [Memory.cache_insert, Std.HashMap.getElem?_insert, if_neg]
  · exact hm other a ha haS
  · rw [beq_iff_eq, String.ofList_inj]
    intro hsame
    subst hsame
    exact hname a ha haS

section

variable {n : Nat} {path : List String} {name : List Char} (hname : isAddressForm name = true)
  (hinside : ∀ k, n = k + 1 → Traps ctx S (cellFormula ctx k (path ++ [String.ofList name])))

include hname hinside

/-- The formula of a cell outside the set keeps the cache clear if what it
enters does: the value that is put in is of no cell of the set. -/
theorem keeps_cellFormula (hout : ∀ a, Address.ofName name = .ok a → ¬ S a) (formula : List Char) :
    Keeps S (cellFormula ctx n path (String.ofList name) formula) := by
  intro m hm
  cases hv : m.cache[String.ofList name]? with
  | some v =>
    rw [cellFormula_of_cached hname formula n path hv]
    exact hm
  | none =>
    by_cases hin : String.ofList name ∈ path
    · rw [cellFormula_of_mem hname formula n hv hin]
      exact hm
    · cases n with
      | zero =>
        rw [cellFormula_zero_of_free hname formula hv hin]
        exact hm
      | succ n =>
        rw [cellFormula_succ_of_free hname formula n hv hin]
        have hexpr := (hinside n rfl).keeps_levels levelLimit (exprOf formula) m hm
        cases hrun : levels ctx (cellFormula ctx n (path ++ [String.ofList name])) levelLimit
            (exprOf formula) m with
        | error fault m' =>
          rw [hrun] at hexpr
          exact hexpr
        | ok v m' =>
          rw [hrun] at hexpr
          exact hexpr.insert hout v

theorem fails_cellFormula (hS : Cyclic ctx S) {a : Address} (ha : Address.ofName name = .ok a)
    (haS : S a) {formula : List Char} (hformula : ctx.formulaAt? (String.ofList name) = some formula) :
    Fails S (cellFormula ctx n path (String.ofList name) formula) := by
  intro m hm
  have hv : m.cache[String.ofList name]? = none := hm name a ha haS
  by_cases hin : String.ofList name ∈ path
  · exact ⟨_, m, cellFormula_of_mem hname formula n hv hin, hm⟩
  · cases n with
    | zero => exact ⟨_, m, cellFormula_zero_of_free hname formula hv hin, hm⟩
    | succ n =>
      obtain ⟨formula', hformula', hdemands⟩ := hS.formula name a ha haS
      obtain rfl : formula' = formula := Option.some.inj (hformula'.symm.trans hformula)
      obtain ⟨fault, m', hrun, hm'⟩ := (hinside n rfl).fails_levels hS hdemands levelLimit m hm
      refine ⟨fault, m', ?_, hm'⟩
      rw [cellFormula_succ_of_free hname formula' n hv hin, hrun]

end

/-- Evaluating the formulas of cells keeps caches clear and has no value for
the cells of the set, with any room and under any path. -/
theorem cellFormula_traps (hS : Cyclic ctx S) (n : Nat) (path : List String) :
    Traps ctx S (cellFormula ctx n path) := by
  induction n using Nat.strongRecOn generalizing path with
  | ind n ih =>
    have hinside : ∀ (name : List Char) k, n = k + 1 →
        Traps ctx S (cellFormula ctx k (path ++ [String.ofList name])) := fun name k hk =>
      ih k (by omega) _
    have hfails : ∀ expr name a, isAddressForm name = true → Address.ofName name = .ok a → S a →
        Fails S ((⟨ctx, expr, cellFormula ctx n path⟩ : Scope).cell (String.ofList name)) := by
      intro expr name a hname ha haS
      obtain ⟨formula, hformula, -⟩ := hS.formula name a ha haS
      rw [cell_of_formula hname formula expr n hformula]
      exact fails_cellFormula hname (hinside name) hS ha haS hformula
    refine ⟨fun expr name hname => ?_, hfails⟩
    by_cases hnamed : ∃ a, Address.ofName name = .ok a ∧ S a
    · obtain ⟨a, ha, haS⟩ := hnamed
      exact (hfails expr name a hname ha haS).keeps
    · cases hformula : ctx.formulaAt? (String.ofList name) with
      | some formula =>
        rw [cell_of_formula hname formula expr n hformula]
        exact keeps_cellFormula hname (hinside name) (fun a ha haS => hnamed ⟨a, ha, haS⟩) formula
      | none =>
        intro m hm
        rw [Scope.cell_apply]
        simp only [hformula]
        cases m.cache[String.ofList name]? <;> exact hm

end Spreadsheet.Formula

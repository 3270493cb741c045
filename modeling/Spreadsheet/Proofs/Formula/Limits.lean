import Spreadsheet.Proofs.Formula.Parts
import Spreadsheet.Proofs.Formula.Reference

/-
  Limits and the guard against cycles only refuse.

  An evaluation may be refused because cells nest too deep, because a range is
  too large or because a cell is in progress. No operator and no function makes
  a value out of a fault, so an evaluation that has a value met no refusal, and
  one with more room and fewer cells in progress takes the same course.

    1. `levels_confirms`, `cellFormula_confirms` : it has the same value and
       leaves the same cache.
    2. `evaluate_of_stricter` : so a formula has, under looser options, every
       value that it has under stricter ones, and every value that it has as the
       formula of some cell.
-/

namespace Spreadsheet.Formula

/-- Whether `y` has every value that `x` has, from the same cache, and leaves
the same cache. -/
def Confirms (α : Type) (x y : Run α) : Prop := ∀ m a m', x m = .ok a m' → y m = .ok a m'

theorem Confirms.refl {α : Type} (x : Run α) : Confirms α x x := fun _ _ _ h => h

theorem confirms_throw {α : Type} (fault : Fault) (y : Run α) : Confirms α (throw fault) y := by
  intro m a m' h
  cases h

theorem confirms_sequential : Sequential Confirms where
  pure a := Confirms.refl (pure a)
  throw fault := confirms_throw fault (throw fault)
  bind := by
    intro α β x y f g hx hf m b m' h
    rw [bind_apply] at h ⊢
    cases hxm : x m with
    | error fault m₁ =>
      rw [hxm] at h
      cases h
    | ok a m₁ =>
      rw [hxm] at h
      rw [hx m a m₁ hxm]
      exact hf a m₁ b m' h

/-- Whether options have the same policy as others and are nowhere stricter. -/
structure Options.Loosens (options stricter : Options) : Prop where
  precedence : stricter.precedence = options.precedence
  maxDepth : stricter.maxDepth ≤ options.maxDepth
  maxRangeCells : stricter.maxRangeCells ≤ options.maxRangeCells

def Context.under (ctx : Context) (options : Options) : Context := { ctx with options }

variable {ctx : Context} {options : Options}

section

variable {f g : String → List Char → Run Value}
  (hcell : ∀ address formula, Confirms Value (f address formula) (g address formula))

include hcell

theorem Scope.cell_confirms (x y : List Char → Run Value) (address : String) :
    Confirms Value ((⟨ctx, x, f⟩ : Scope).cell address)
      ((⟨ctx.under options, y, g⟩ : Scope).cell address) := by
  intro m v m' h
  have hsame : (ctx.under options).formulaAt? address = ctx.formulaAt? address := rfl
  rw [Scope.cell_apply] at h ⊢
  cases hv : m.cache[address]? with
  | some w =>
    rw [hv] at h
    exact h
  | none =>
    simp only [hv, hsame] at h ⊢
    cases hformula : ctx.formulaAt? address with
    | none =>
      simp only [hformula] at h
      exact h
    | some formula =>
      simp only [hformula] at h
      exact hcell address formula m v m' h

/-- A range with a value is within the stricter limit, so it is within the
other one. -/
theorem Scope.rangeCells_confirms (h : options.Loosens ctx.options) (x y : List Char → Run Value)
    (text : List Char) (range : Range) :
    Confirms (List Value) ((⟨ctx, x, f⟩ : Scope).rangeCells text range)
      ((⟨ctx.under options, y, g⟩ : Scope).rangeCells text range) := by
  have hbounds : (ctx.under options).bounds = ctx.bounds := rfl
  have hlimit : ctx.options.maxRangeCells ≤ (ctx.under options).options.maxRangeCells := h.maxRangeCells
  rw [Scope.rangeCells_eq, Scope.rangeCells_eq]
  dsimp only
  rw [hbounds]
  split
  · exact confirms_throw _ _
  · rename_i hsize
    rw [if_neg (by omega)]
    exact confirms_sequential.mapM _ fun a _ => Scope.cell_confirms hcell x y a.label

theorem levels_confirms (h : options.Loosens ctx.options) (n : Nat) (e : List Char) :
    Confirms Value (levels ctx f n e) (levels (ctx.under options) g n e) := by
  have hprecedence : ctx.options.precedence = (ctx.under options).options.precedence := h.precedence
  refine levels_alike confirms_sequential (p := fun _ => True) (q := fun _ => True) hprecedence
    (fun _ _ => .of_forall (fun _ => trivial) _) (fun _ _ => trivial) (fun _ _ _ _ _ _ => Confirms.refl _)
    (fun _ _ _ _ => trivial) ?_ ?_ n e trivial
  · intro x y a _
    exact Scope.cell_confirms hcell x y (String.ofList a)
  · intro x y e range _ _ _
    exact Scope.rangeCells_confirms hcell h x y (Text.trim e) range

end

/-- With more room, fewer cells in progress and looser options, the formula of
a cell has every value that it has otherwise. -/
theorem cellFormula_confirms (h : options.Loosens ctx.options) {n n' : Nat} (hn : n ≤ n')
    {path path' : List String} (hpath : path' ⊆ path) (address : String) (formula : List Char) :
    Confirms Value (cellFormula ctx n path address formula)
      (cellFormula (ctx.under options) n' path' address formula) := by
  induction n generalizing n' path path' address formula with
  | zero =>
    intro m v m' hvalue
    rcases cellFormula_eq_ok hvalue with ⟨hv, rfl⟩ | ⟨-, -, k, -, hroom, -⟩
    · exact cellFormula_cached formula n' path' hv
    · cases hroom
  | succ n ih =>
    obtain ⟨k', rfl⟩ : ∃ k, n' = k + 1 := ⟨n' - 1, by omega⟩
    intro m v m' hvalue
    rcases cellFormula_eq_ok hvalue with ⟨hv, rfl⟩ | ⟨hv, hout, k, m₁, hroom, hrun, rfl⟩
    · exact cellFormula_cached formula (k' + 1) path' hv
    · obtain rfl : n = k := Nat.succ.inj hroom
      have hinside : path' ++ [cacheKey address] ⊆ path ++ [cacheKey address] :=
        List.append_subset.2 ⟨List.subset_append_of_subset_left _ hpath, List.subset_append_right _ _⟩
      have hlevels := levels_confirms (fun a f => ih (Nat.le_of_succ_le_succ hn) hinside a f) h
        levelLimit (exprOf formula) m v m₁ hrun
      rw [cellFormula_entered formula hv fun hmem => hout (hpath hmem), hlevels]

/-! ## Fewer levels -/

/-- Whether an evaluation ended because an expression nests too deep. -/
def TooDeep {α : Type} (r : EStateM.Result Fault Memory α) : Prop :=
  ∃ expr m, r = .error (.nestedTooDeep levelLimit expr) m

theorem TooDeep.bind {α β : Type} {x : Run α} {m : Memory} (h : TooDeep (x m)) (f : α → Run β) :
    TooDeep ((x >>= f) m) := by
  obtain ⟨expr, m', hx⟩ := h
  exact ⟨expr, m', by rw [bind_apply, hx]⟩

/-- Whether `x` does what `y` does wherever it does not end for nesting too
deep. -/
def UnlessTooDeep (α : Type) (x y : Run α) : Prop := ∀ m, x m = y m ∨ TooDeep (x m)

theorem UnlessTooDeep.refl {α : Type} (x : Run α) : UnlessTooDeep α x x := fun _ => .inl rfl

theorem unlessTooDeep_sequential : Sequential UnlessTooDeep where
  pure a := UnlessTooDeep.refl (pure a)
  throw fault := UnlessTooDeep.refl (throw fault)
  bind := by
    intro α β x y f g hx hf m
    rcases hx m with hsame | hdeep
    · rw [bind_apply, bind_apply, ← hsame]
      cases x m with
      | ok a m' => exact hf a m'
      | error fault m' => exact .inl rfl
    · exact .inr (hdeep.bind f)

/-- With fewer levels an expression takes the same course, or it ends because
there are too few. -/
theorem levels_unlessTooDeep (f : String → List Char → Run Value) {n n' : Nat} (h : n ≤ n') (e : List Char) :
    UnlessTooDeep Value (levels ctx f n e) (levels ctx f n' e) := by
  induction n generalizing n' e with
  | zero => exact fun m => .inr ⟨String.ofList e, m, rfl⟩
  | succ n ih =>
    obtain ⟨k, rfl⟩ : ∃ k, n' = k + 1 := ⟨n' - 1, by omega⟩
    have hexpr := fun e => ih (Nat.le_of_succ_le_succ h) e
    have hcell : ∀ a, UnlessTooDeep Value ((⟨ctx, levels ctx f n, f⟩ : Scope).cell a)
        ((⟨ctx, levels ctx f k, f⟩ : Scope).cell a) := fun a => UnlessTooDeep.refl _
    have alike : Scope.Alike UnlessTooDeep (fun _ => True) (fun _ => True)
        ⟨ctx, levels ctx f n, f⟩ ⟨ctx, levels ctx f k, f⟩ :=
      { sequential := unlessTooDeep_sequential
        expr := fun e _ => hexpr e
        expand := fun _ _ => Scope.expand_alike unlessTooDeep_sequential (hexpr _)
          (fun _ _ _ => Scope.rangeCells_alike unlessTooDeep_sequential _ rfl rfl (fun a _ => hcell a.label))
        cell := fun a _ => hcell (String.ofList a)
        precedence := rfl }
    exact alike.shape _ (.of_forall (fun _ => trivial) _) (fun _ _ _ _ => UnlessTooDeep.refl _) (fun _ _ => trivial)

/-! ## Whole formulas -/

section

variable {formula : String} {v : Value}

theorem evaluate_eq_ok :
    evaluate ctx formula = .ok v ↔ ∃ m, levels ctx (cellFormula ctx ctx.options.maxDepth []) levelLimit
      (exprOf formula.toList) ∅ = .ok v m := fst_run_eq_ok

theorem evaluate_of_tooDeep (h : TooDeep (levels ctx (cellFormula ctx ctx.options.maxDepth []) levelLimit
      (exprOf formula.toList) ∅)) : ∃ expr, evaluate ctx formula = .error (.nestedTooDeep levelLimit expr) := by
  obtain ⟨expr, m, hrun⟩ := h
  exact ⟨expr, fst_run_eq_error.2 ⟨m, hrun⟩⟩

theorem evaluate_under (h : options.Loosens ctx.options) (hvalue : evaluate ctx formula = .ok v) :
    evaluate (ctx.under options) formula = .ok v := by
  obtain ⟨m, hrun⟩ := evaluate_eq_ok.1 hvalue
  have hcells := cellFormula_confirms h h.maxDepth (List.Subset.refl [])
  have hlevels := levels_confirms hcells h levelLimit (exprOf formula.toList) ∅ v m hrun
  exact evaluate_eq_ok.2 ⟨m, hlevels⟩

/-- The formula of a cell is evaluated like a formula in no cell, with one cell
in progress and room for one less. -/
theorem evaluate_of_evaluateAt {address : String} (hvalue : evaluateAt ctx address formula = .ok v) :
    evaluate ctx formula = .ok v := by
  have h : ctx.options.Loosens ctx.options := ⟨rfl, Nat.le_refl _, Nat.le_refl _⟩
  obtain ⟨m, hcell⟩ := evaluateAt_eq_ok.1 hvalue
  rcases cellFormula_eq_ok hcell with ⟨hcached, -⟩ | ⟨-, -, k, m₁, hroom, hrun, -⟩
  · simp at hcached
  · have hcells := cellFormula_confirms h (show k ≤ ctx.options.maxDepth by omega)
      (List.nil_subset ([] ++ [cacheKey address]))
    have hlevels := levels_confirms hcells h levelLimit (exprOf formula.toList) ∅ v m₁ hrun
    exact evaluate_eq_ok.2 ⟨m₁, hlevels⟩

/-- Limits and the guard against cycles only refuse, they never change a value.
A formula has every value that it has under stricter options, and every value
that it has as the formula of a cell. -/
theorem evaluate_of_stricter (ctx : Context) (formula : String) (v : Value) :
    (∀ options : Options, options.Loosens ctx.options → evaluate ctx formula = .ok v →
      evaluate (ctx.under options) formula = .ok v) ∧
    ∀ address, evaluateAt ctx address formula = .ok v → evaluate ctx formula = .ok v :=
  ⟨fun _ h hvalue => evaluate_under h hvalue, fun _ hvalue => evaluate_of_evaluateAt hvalue⟩

end

/-- A cell that holds a formula, and room for it and one cell that refers to
it. -/
def linked : Context where
  resolve address := if address = "A1" then some "=TRUE" else none
  bounds := none
  clock := Moment.epoch
  options := ⟨.leftToRight, 2, 0⟩

theorem evaluate_of_stricter_linked :
    evaluateAt linked "B1" "=A1" = .ok (.boolean true) ∧ Options.default.Loosens linked.options ∧
      evaluate (linked.under .default) "=A1" = .ok (.boolean true) := by
  have htruth : Constant linked "=TRUE".toList (.boolean true) := fun _ m => ⟨m, rfl, rfl⟩
  have hformula : linked.formulaAt? (⟨0, 0⟩ : Address).label = some "=TRUE".toList := by decide +kernel
  have hlink : String.ofList (referenceTo ⟨0, 0⟩) = "=A1" := by decide +kernel
  have hplace : (⟨0, 1⟩ : Address).label = "B1" := by decide +kernel
  have hcell := htruth.evaluateAt_referenceTo (show 1 < linked.options.maxDepth by decide)
    (show (⟨0, 1⟩ : Address) ≠ ⟨0, 0⟩ by decide) hformula
  rw [hlink, hplace] at hcell
  have hloose : Options.default.Loosens linked.options := ⟨rfl, by decide, by decide⟩
  obtain ⟨hloosened, halone⟩ := evaluate_of_stricter linked "=A1" (.boolean true)
  exact ⟨hcell, hloose, hloosened .default hloose (halone "B1" hcell)⟩

end Spreadsheet.Formula

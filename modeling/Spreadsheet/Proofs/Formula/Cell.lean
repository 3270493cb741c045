import Spreadsheet.Proofs.Address.Name

/-
  Looking at one cell.

  A cell is one of a formula or of a text that stands for its own value. Its
  formula has one of four outcomes before anything else is looked at: it is in
  the cache, it is in progress, there is no room for it, or it is entered.
-/

namespace Spreadsheet

def Moment.epoch : Moment := ⟨⟨1970, 1, 1, by decide⟩, 0, 0, 0⟩

def Clock.epoch : Clock := .fixed .epoch

namespace Formula

/-! ## What a cell holds -/

/-- The formula in the cell at an address, as the evaluator reads it. -/
def Context.formulaAt? (ctx : Context) (address : String) : Option (List Char) :=
  match ctx.resolve address with
  | some text => (Text.trim text.toList).head?.bind fun c =>
      if c = formulaMark then some (Text.trim text.toList) else none
  | none => none

/-- The value of the cell at an address if it holds no formula. -/
def Context.literalAt (ctx : Context) (address : String) : Value :=
  match ctx.resolve address with
  | none => .empty
  | some text =>
    match Text.trim text.toList with
    | c :: cs => if c = textMark then .text (String.ofList cs) else Value.ofCellText text
    | [] => Value.ofCellText text

theorem Context.exists_of_formulaAt? {ctx : Context} {address : String} {formula : List Char}
    (h : ctx.formulaAt? address = some formula) :
    ∃ text, ctx.resolve address = some text ∧ (Text.trim text.toList).head? = some formulaMark ∧
      Text.trim text.toList = formula := by
  unfold Context.formulaAt? at h
  cases htext : ctx.resolve address with
  | none =>
    rw [htext] at h
    cases h
  | some text =>
    rw [htext] at h
    obtain ⟨c, hc, hmark⟩ := Option.bind_eq_some_iff.1 h
    split at hmark
    · rename_i heq
      exact ⟨text, rfl, heq ▸ hc, Option.some.inj hmark⟩
    · cases hmark

theorem bind_apply {α β : Type} (x : Run α) (f : α → Run β) (m : Memory) :
    (x >>= f) m = match x m with
      | .ok a m' => f a m'
      | .error fault m' => .error fault m' := by
  show EStateM.bind x f m = _
  unfold EStateM.bind
  cases x m <;> rfl

/-- A cell is looked up; else its formula is evaluated, or it is what it
holds. -/
theorem Scope.cell_apply (s : Scope) (address : String) (m : Memory) :
    s.cell address m = match m.cache[address]? with
      | some v => .ok v m
      | none => match s.ctx.formulaAt? address with
        | some formula => s.formula address formula m
        | none => .ok (s.ctx.literalAt address) m := by
  have hmark : textMark ≠ formulaMark := by decide
  unfold Scope.cell
  rw [bind_apply]
  show (match m.cache[address]? with
    | some v => (Pure.pure v : Run Value)
    | none => match s.ctx.resolve address with
      | none => Pure.pure Value.empty
      | some text => s.cellText address text) m = _
  cases m.cache[address]? with
  | some v => rfl
  | none =>
    simp only [Context.formulaAt?, Context.literalAt]
    cases s.ctx.resolve address with
    | none => rfl
    | some text =>
      simp only [Scope.cellText]
      cases Text.trim text.toList with
      | nil => rfl
      | cons d ds =>
        by_cases hd : d = textMark
        · simp only [hd, if_true, List.head?_cons, Option.bind_some, hmark, if_false]
          rfl
        · by_cases hf : d = formulaMark
          · simp only [hf, hmark.symm, if_true, if_false, List.head?_cons, Option.bind_some]
          · simp only [hd, hf, if_false, List.head?_cons, Option.bind_some]
            rfl

theorem Scope.cell_of_literal (s : Scope) {address : String} (hnone : s.ctx.formulaAt? address = none)
    {m : Memory} (hm : m.cache[address]? = none) : s.cell address m = .ok (s.ctx.literalAt address) m := by
  rw [Scope.cell_apply, hm]
  simp only [hnone]

/-! ## The formula of a cell -/

section

variable {ctx : Context} {path : List String} {address : String} (formula : List Char) {m : Memory}

theorem cellFormula_cached (n : Nat) (path : List String) {v : Value}
    (hv : m.cache[cacheKey address]? = some v) : cellFormula ctx n path address formula m = .ok v m := by
  cases n with
  | zero =>
    show (match m.cache[cacheKey address]? with | some v => (Pure.pure v : Run Value) | none => _) m = _
    rw [hv]
    rfl
  | succ n =>
    show (match m.cache[cacheKey address]? with | some v => (Pure.pure v : Run Value) | none => _) m = _
    rw [hv]
    rfl

variable (hv : m.cache[cacheKey address]? = none)

include hv

theorem cellFormula_circular (n : Nat) (hin : cacheKey address ∈ path) :
    cellFormula ctx n path address formula m = .error (.circular path (cacheKey address)) m := by
  cases n with
  | zero =>
    show (match m.cache[cacheKey address]? with
      | some v => (Pure.pure v : Run Value)
      | none => if cacheKey address ∈ path then _ else _) m = _
    rw [hv]
    dsimp only
    rw [if_pos hin]
    rfl
  | succ n =>
    show (match m.cache[cacheKey address]? with
      | some v => (Pure.pure v : Run Value)
      | none => if cacheKey address ∈ path then _ else _) m = _
    rw [hv]
    dsimp only
    rw [if_pos hin]
    rfl

variable (hout : cacheKey address ∉ path)

include hout

theorem cellFormula_refused :
    cellFormula ctx 0 path address formula m =
      .error (.tooManyNested ctx.options.maxDepth (cacheKey address)) m := by
  show (match m.cache[cacheKey address]? with
    | some v => (Pure.pure v : Run Value)
    | none => if cacheKey address ∈ path then _ else _) m = _
  rw [hv]
  dsimp only
  rw [if_neg hout]
  rfl

theorem cellFormula_entered (n : Nat) :
    cellFormula ctx (n + 1) path address formula m =
      match levels ctx (cellFormula ctx n (path ++ [cacheKey address])) levelLimit (exprOf formula) m with
      | .ok v m' => .ok v (m'.insert (cacheKey address) v)
      | .error fault m' => .error fault m' := by
  show (match m.cache[cacheKey address]? with
    | some v => (Pure.pure v : Run Value)
    | none => if cacheKey address ∈ path then _ else _) m = _
  rw [hv]
  dsimp only
  rw [if_neg hout, bind_apply]
  cases levels ctx (cellFormula ctx n (path ++ [cacheKey address])) levelLimit (exprOf formula) m <;> rfl

omit hv hout

variable {formula}

/-- A value is one from the cache, or one of a formula that was entered. -/
theorem cellFormula_eq_ok {n : Nat} {v : Value} {m' : Memory}
    (h : cellFormula ctx n path address formula m = .ok v m') :
    (m.cache[cacheKey address]? = some v ∧ m' = m) ∨
      (m.cache[cacheKey address]? = none ∧ cacheKey address ∉ path ∧ ∃ k m₁, n = k + 1 ∧
        levels ctx (cellFormula ctx k (path ++ [cacheKey address])) levelLimit (exprOf formula) m =
          .ok v m₁ ∧
        m' = m₁.insert (cacheKey address) v) := by
  cases hv : m.cache[cacheKey address]? with
  | some w =>
    rw [cellFormula_cached formula n path hv] at h
    cases h
    exact .inl ⟨rfl, rfl⟩
  | none =>
    by_cases hin : cacheKey address ∈ path
    · rw [cellFormula_circular formula hv n hin] at h
      cases h
    · cases n with
      | zero =>
        rw [cellFormula_refused formula hv hin] at h
        cases h
      | succ k =>
        rw [cellFormula_entered formula hv hin] at h
        cases hrun : levels ctx (cellFormula ctx k (path ++ [cacheKey address])) levelLimit
          (exprOf formula) m with
        | error fault m₁ =>
          rw [hrun] at h
          cases h
        | ok w m₁ =>
          rw [hrun] at h
          cases h
          exact .inr ⟨rfl, hin, k, m₁, rfl, hrun, rfl⟩

end

/-! ## The formula of a cell under its name

A name is its own key. -/

section

variable {ctx : Context} {path : List String} {a : List Char} (ha : isAddressForm a = true)
  (formula : List Char) {m : Memory}

include ha

theorem cellFormula_of_cached (n : Nat) (path : List String) {v : Value}
    (hv : m.cache[String.ofList a]? = some v) :
    cellFormula ctx n path (String.ofList a) formula m = .ok v m := by
  apply cellFormula_cached
  rwa [cacheKey_of_isAddressForm ha]

theorem cellFormula_of_mem (n : Nat) (hv : m.cache[String.ofList a]? = none)
    (hin : String.ofList a ∈ path) :
    cellFormula ctx n path (String.ofList a) formula m = .error (.circular path (String.ofList a)) m := by
  have hkey := cacheKey_of_isAddressForm ha
  rw [← hkey] at hv hin
  have hrefused : cellFormula ctx n path (String.ofList a) formula m = _ :=
    cellFormula_circular formula hv n hin
  rwa [hkey] at hrefused

theorem cellFormula_zero_of_free (hv : m.cache[String.ofList a]? = none) (hout : String.ofList a ∉ path) :
    cellFormula ctx 0 path (String.ofList a) formula m =
      .error (.tooManyNested ctx.options.maxDepth (String.ofList a)) m := by
  have hkey := cacheKey_of_isAddressForm ha
  rw [← hkey] at hv hout
  have hrefused : cellFormula ctx 0 path (String.ofList a) formula m = _ :=
    cellFormula_refused formula hv hout
  rwa [hkey] at hrefused

theorem cellFormula_succ_of_free (n : Nat) (hv : m.cache[String.ofList a]? = none)
    (hout : String.ofList a ∉ path) :
    cellFormula ctx (n + 1) path (String.ofList a) formula m =
      match levels ctx (cellFormula ctx n (path ++ [String.ofList a])) levelLimit (exprOf formula) m with
      | .ok v m' => .ok v (m'.insert (String.ofList a) v)
      | .error fault m' => .error fault m' := by
  have hkey := cacheKey_of_isAddressForm ha
  rw [← hkey] at hv hout
  have hentered : cellFormula ctx (n + 1) path (String.ofList a) formula m = _ :=
    cellFormula_entered formula hv hout n
  rwa [hkey] at hentered

/-- With room for no cell, an answer is one from the cache. -/
theorem cellFormula_zero_eq_ok {v : Value} {m' : Memory}
    (h : cellFormula ctx 0 path (String.ofList a) formula m = .ok v m') :
    m' = m ∧ m.cache[String.ofList a]? = some v := by
  rcases cellFormula_eq_ok h with ⟨hv, rfl⟩ | ⟨-, -, n, -, hroom, -⟩
  · rw [cacheKey_of_isAddressForm ha] at hv
    exact ⟨rfl, hv⟩
  · cases hroom

/-- A formula cell is evaluated like its formula, also if it was before. -/
theorem cell_of_formula (expr : List Char → Run Value) (n : Nat)
    (hformula : ctx.formulaAt? (String.ofList a) = some formula) :
    (⟨ctx, expr, cellFormula ctx n path⟩ : Scope).cell (String.ofList a) =
      cellFormula ctx n path (String.ofList a) formula := by
  funext m
  rw [Scope.cell_apply]
  cases hv : m.cache[String.ofList a]? with
  | none => simp only [hformula]
  | some v => rw [cellFormula_of_cached ha formula n path hv]

end

/-! ## One cell by itself -/

theorem fst_run_eq_ok {α : Type} {ev : Evaluator} {r : Run α} {a : α} :
    (ev.run r).1 = .ok a ↔ ∃ m, r ev.toMemory = .ok a m := by
  unfold Evaluator.run
  cases r ev.toMemory <;> simp

theorem fst_run_eq_error {α : Type} {ev : Evaluator} {r : Run α} {fault : Fault} :
    (ev.run r).1 = .error fault ↔ ∃ m, r ev.toMemory = .error fault m := by
  unfold Evaluator.run
  cases r ev.toMemory <;> simp

section

variable {ctx : Context} {address text : String} {m : Memory}

theorem evaluateAt_eq_ok {v : Value} :
    evaluateAt ctx address text = .ok v ↔
      ∃ m, cellFormula ctx ctx.options.maxDepth [] address text.toList ∅ = .ok v m := fst_run_eq_ok

theorem evaluateAt_of_error {fault : Fault}
    (h : cellFormula ctx ctx.options.maxDepth [] address text.toList ∅ = .error fault m) :
    evaluateAt ctx address text = .error fault := fst_run_eq_error.2 ⟨m, h⟩

end

end Formula

end Spreadsheet

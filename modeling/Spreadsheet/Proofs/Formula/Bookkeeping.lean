import Spreadsheet.Proofs.Formula.Plan
import Spreadsheet.Proofs.Formula.SharedCache

/-
  The books an evaluator keeps.

  The cells in progress and the levels entered are passed down through an
  evaluation and never handed back, so nothing can be wrong about them
  afterwards. An evaluator that shares one state among all its calls has to keep
  them by hand: it enters a cell into the path and takes it off again, it counts
  a level up and down, and in between it may fail anywhere. `Stateful` is that
  way to evaluate, with every change of the state written out.

    1. `Stateful.expr_restores`, `Stateful.cell_restores` : from every state both
       ways come to the same answer and the same memory, and the state kept by
       hand has its path and its depth back, also after a fault.
    2. `cellFormula_keeps` : what is in the cache stays there unchanged, and
       nothing is put there for a cell in progress.

  `Request.state_after` says both of everything an evaluator can be asked.
-/

namespace Spreadsheet.Formula

open Cache (Sub)

/-! ## Evaluation with the whole state kept by hand -/

/-- A computation that may change the whole state. There is no outcome if the
calls go deeper than it was given leave to. -/
def Stateful (α : Type) : Type := Evaluator → Option (Except Fault α × Evaluator)

/-- A plan carried out with the given ways to answer its requests, each in the
state that the one before left. -/
def Plan.carry {α : Type} (ctx : Context) (expr : List Char → Stateful Value)
    (cell : String → Stateful Value) : Plan α → Stateful α
  | done a, ev => some (.ok a, ev)
  | fail fault, ev => some (.error fault, ev)
  | .part e next, ev =>
    match expr e ev with
    | some (.ok v, ev') => (next v).carry ctx expr cell ev'
    | some (.error fault, ev') => some (.error fault, ev')
    | none => none
  | .cell address next, ev =>
    match cell address ev with
    | some (.ok v, ev') => (next v).carry ctx expr cell ev'
    | some (.error fault, ev') => some (.error fault, ev')
    | none => none
  | .time next, ev =>
    (next (ctx.clock.reading ev.readings)).carry ctx expr cell { ev with readings := ev.readings + 1 }

namespace Stateful

/-- The formula of the cell at an address. While it is evaluated its cell is the
last of the path and the count of levels starts anew; then the cell comes off
the path and the count goes on. -/
def formula (ctx : Context) (expr : List Char → Stateful Value) (address : String)
    (text : List Char) : Stateful Value := fun ev =>
  let key := cacheKey address
  match ev.cache[key]? with
  | some v => some (.ok v, ev)
  | none =>
    if key ∈ ev.path then some (.error (.circular ev.path key), ev)
    else if ctx.options.maxDepth ≤ ev.path.length then
      some (.error (.tooManyNested ctx.options.maxDepth key), ev)
    else
      match expr (exprOf text) { ev with path := ev.path ++ [key], depth := 0 } with
      | none => none
      | some (result, ev') =>
        let ev' := { ev' with path := ev'.path.dropLast, depth := ev.depth }
        match result with
        | .ok v => some (.ok v, { ev' with cache := ev'.cache.insert key v })
        | .error fault => some (.error fault, ev')

/-- The value of the cell at an address. -/
def cell (ctx : Context) (expr : List Char → Stateful Value) (address : String) : Stateful Value :=
  fun ev =>
    match ev.cache[address]? with
    | some v => some (.ok v, ev)
    | none =>
      match ctx.formulaAt? address with
      | some text => formula ctx expr address text ev
      | none => some (.ok (ctx.literalAt address), ev)

/-- The value of an expression, by at most `n` calls inside one another. A level
is counted as entered for as long as its plan is carried out. -/
def expr (ctx : Context) : Nat → List Char → Stateful Value
  | 0, _ => fun _ => none
  | n + 1, e => fun ev =>
    if levelLimit ≤ ev.depth then some (.error (.nestedTooDeep levelLimit (String.ofList e)), ev)
    else
      let plan := Plan.ofShape ctx (Shape.ofExpr (Text.trim e))
      match plan.carry ctx (expr ctx n) (cell ctx (expr ctx n)) { ev with depth := ev.depth + 1 } with
      | none => none
      | some (result, ev') => some (result, { ev' with depth := ev'.depth - 1 })

/-! ## Path and depth are restored -/

/-- Whether a computation does to the memory what `r` does, with the answer of
`r`, and leaves the path and the depth of the state as they are. -/
def Restores (ev : Evaluator) {α : Type} (r : Run α) (x : Stateful α) : Prop :=
  ∀ m : Memory, x { ev with toMemory := m } = some (({ ev with toMemory := m } : Evaluator).run r)

variable {ctx : Context} {ev : Evaluator}

/-- If the answers to requests restore the state, every plan does. -/
theorem carry_restores {s : Scope} {expr : List Char → Stateful Value} {cell : String → Stateful Value}
    (hexpr : ∀ e, Restores ev (s.expr e) (expr e)) (hcell : ∀ a, Restores ev (s.cell a) (cell a))
    {α : Type} (p : Plan α) : Restores ev (p.run s) (p.carry s.ctx expr cell) := by
  intro m
  induction p generalizing m with
  | done a => rfl
  | fail fault => rfl
  | part e next ih =>
    have hask := hexpr e m
    simp only [Plan.carry, Plan.run, hask, Evaluator.run, bind_apply]
    cases s.expr e m with
    | ok v m' => exact ih v m'
    | error fault m' => rfl
  | cell address next ih =>
    have hlook := hcell address m
    simp only [Plan.carry, Plan.run, hlook, Evaluator.run, bind_apply]
    cases s.cell address m with
    | ok v m' => exact ih v m'
    | error fault m' => rfl
  | time next ih => exact ih (s.ctx.clock.reading m.readings) { m with readings := m.readings + 1 }

end Stateful

/-- How many levels can still be entered inside one another from a state: those
that the expression has left, and all levels of every formula cell there is room
for. -/
def Evaluator.levelsLeft (ctx : Context) (ev : Evaluator) : Nat :=
  (ctx.options.maxDepth - ev.path.length) * levelLimit + (levelLimit - ev.depth)

/-- Entering a formula cell spends its room on the levels of its formula. -/
theorem Evaluator.levelsLeft_entered (ctx : Context) {ev : Evaluator} (key : String) (m : Memory)
    (hroom : ev.path.length < ctx.options.maxDepth) :
    levelsLeft ctx ⟨m, ev.path ++ [key], 0⟩ ≤ ev.levelsLeft ctx := by
  have hsub : ctx.options.maxDepth - ev.path.length =
      ctx.options.maxDepth - (ev.path.length + 1) + 1 := by
    omega
  simp only [levelsLeft, List.length_append, List.length_singleton, hsub, Nat.add_mul]
  omega

/-- An expression that may be entered is evaluated one level further in. -/
theorem Evaluator.exprRun_of_lt (ctx : Context) {ev : Evaluator} (hdepth : ev.depth < levelLimit)
    (e : List Char) :
    ev.exprRun ctx e =
      (Evaluator.scope ctx { ev with depth := ev.depth + 1 }).shape (Shape.ofExpr (Text.trim e)) := by
  have hsub : levelLimit - ev.depth = levelLimit - (ev.depth + 1) + 1 := by omega
  rw [exprRun, hsub]
  rfl

namespace Stateful

variable {ctx : Context} {n : Nat}
  (hexpr : ∀ (ev : Evaluator) (e : List Char), ev.levelsLeft ctx < n →
    Restores ev (ev.exprRun ctx e) (expr ctx n e))
  {ev : Evaluator} (hn : ev.levelsLeft ctx < n)

include hexpr hn

theorem formula_restores (address : String) (text : List Char) :
    Restores ev (ev.formulaOf ctx address text) (formula ctx (expr ctx n) address text) := by
  intro m
  unfold formula Evaluator.run Evaluator.formulaOf
  dsimp only
  cases hv : m.cache[cacheKey address]? with
  | some v => rw [cellFormula_cached text _ ev.path hv]
  | none =>
    dsimp only
    by_cases hin : cacheKey address ∈ ev.path
    · rw [if_pos hin, cellFormula_circular text hv _ hin]
    · rw [if_neg hin]
      by_cases hfull : ctx.options.maxDepth ≤ ev.path.length
      · rw [if_pos hfull, Nat.sub_eq_zero_of_le hfull, cellFormula_refused text hv hin]
      · have hroom := Nat.not_le.1 hfull
        have hsub : ctx.options.maxDepth - ev.path.length =
            ctx.options.maxDepth - (ev.path ++ [cacheKey address]).length + 1 := by
          rw [List.length_append, List.length_singleton]
          omega
        have hinside := hexpr ⟨m, ev.path ++ [cacheKey address], 0⟩ (exprOf text)
          (Nat.lt_of_le_of_lt (Evaluator.levelsLeft_entered ctx _ m hroom) hn) m
        rw [if_neg hfull, hsub, cellFormula_entered text hv hin, hinside]
        simp only [Evaluator.run, Evaluator.exprRun, Evaluator.formulaOf, Nat.sub_zero]
        cases levels ctx (cellFormula ctx (ctx.options.maxDepth - (ev.path ++ [cacheKey address]).length)
            (ev.path ++ [cacheKey address])) levelLimit (exprOf text) m with
        | ok v m' =>
          simp only [List.dropLast_concat]
          rfl
        | error fault m' => simp only [List.dropLast_concat]

theorem cell_restores (address : String) :
    Restores ev ((ev.scope ctx).cell address) (cell ctx (expr ctx n) address) := by
  intro m
  rw [Evaluator.run, Scope.cell_apply, cell]
  dsimp only
  cases m.cache[address]? with
  | some v => rfl
  | none =>
    dsimp only [Evaluator.scope]
    cases ctx.formulaAt? address with
    | some text => exact formula_restores hexpr hn address text m
    | none => rfl

omit hexpr hn

/-- With leave for more calls than there are levels left, every expression comes
to the value it has, and the state is restored. -/
theorem expr_restores (n : Nat) (ev : Evaluator) (e : List Char) (hn : ev.levelsLeft ctx < n) :
    Restores ev (ev.exprRun ctx e) (expr ctx n e) := by
  induction n generalizing ev e with
  | zero => exact absurd hn (Nat.not_lt_zero _)
  | succ n ih =>
    by_cases hdeep : levelLimit ≤ ev.depth
    · intro m
      rw [Evaluator.exprRun, Nat.sub_eq_zero_of_le hdeep]
      exact if_pos hdeep
    · -- the plan is carried out one level further in, where one level less is left
      let inner : Evaluator := { ev with depth := ev.depth + 1 }
      have hinner : inner.levelsLeft ctx < n := by
        simp only [inner, Evaluator.levelsLeft] at hn ⊢
        omega
      have hplan : Restores inner (ev.exprRun ctx e)
          ((Plan.ofShape ctx (Shape.ofExpr (Text.trim e))).carry ctx (expr ctx n)
            (cell ctx (expr ctx n))) := by
        rw [Evaluator.exprRun_of_lt ctx (Nat.not_le.1 hdeep), ← Plan.run_ofShape]
        exact carry_restores (fun e' => ih inner e' hinner) (cell_restores ih hinner) _
      intro m
      have hcarried := hplan m
      rw [expr]
      simp only [inner, Evaluator.run] at hcarried ⊢
      rw [if_neg hdeep, hcarried]
      cases ev.exprRun ctx e m <;> rfl

end Stateful

/-! ## What is in the cache stays there -/

/-- What evaluation under a path may do to a cache: it adds values, none of them
for a cell of the path. -/
structure Kept (path : List String) (m m' : Cache) : Prop where
  sub : Sub m m'
  onPath : ∀ key ∈ path, m'[key]? = m[key]?

namespace Kept

variable {path : List String} {m m' m'' : Cache}

theorem refl (path : List String) (m : Cache) : Kept path m m := ⟨Sub.refl m, fun _ _ => rfl⟩

theorem trans (h : Kept path m m') (h' : Kept path m' m'') : Kept path m m'' :=
  ⟨h.sub.trans h'.sub, fun key hkey => (h'.onPath key hkey).trans (h.onPath key hkey)⟩

theorem of_snoc {key : String} (h : Kept (path ++ [key]) m m') : Kept path m m' :=
  ⟨h.sub, fun k hk => h.onPath k (List.mem_append_left _ hk)⟩

theorem insert {key : String} (h : Kept (path ++ [key]) m m') (hfree : m[key]? = none)
    (hout : key ∉ path) (v : Value) : Kept path m (m'.insert key v) := by
  have hfree' : m'[key]? = none :=
    (h.onPath key (List.mem_append_right _ List.mem_cons_self)).trans hfree
  refine ⟨h.sub.trans (Cache.sub_insert v hfree'), fun k hk => ?_⟩
  have hne : ¬ (key == k) = true := by
    rw [beq_iff_eq]
    rintro rfl
    exact hout hk
  rw [Std.HashMap.getElem?_insert, if_neg hne]
  exact h.of_snoc.onPath k hk

end Kept

/-- Whether a computation keeps the cache under a path, whatever becomes of
it. -/
def KeepsCache (path : List String) {α : Type} (x : Run α) : Prop :=
  ∀ m, match x m with
    | .ok _ m' | .error _ m' => Kept path m.cache m'.cache

theorem keepsCache_pure (path : List String) {α : Type} (a : α) : KeepsCache path (pure a : Run α) :=
  fun m => Kept.refl path m.cache

theorem keepsCache_now (path : List String) (ctx : Context) : KeepsCache path ctx.now :=
  fun m => Kept.refl path m.cache

theorem KeepsCache.bind {path : List String} {α β : Type} {x : Run α} {f : α → Run β}
    (hx : KeepsCache path x) (hf : ∀ a, KeepsCache path (f a)) : KeepsCache path (x >>= f) := by
  intro m
  have hx := hx m
  rw [bind_apply]
  cases hxm : x m with
  | error fault m' =>
    rw [hxm] at hx
    exact hx
  | ok a m' =>
    rw [hxm] at hx
    have hf := hf a m'
    dsimp only at hx ⊢
    cases hfm : f a m' with
    | error fault m'' =>
      rw [hfm] at hf
      exact hx.trans hf
    | ok b m'' =>
      rw [hfm] at hf
      exact hx.trans hf

theorem keepsCache_sequential (path : List String) : Sequential fun _ x _ => KeepsCache path x where
  pure := keepsCache_pure path
  throw _ := fun m => Kept.refl path m.cache
  bind := KeepsCache.bind

theorem Evaluator.books_run {α : Type} (ev : Evaluator) (x : Run α) :
    (ev.run x).2.path = ev.path ∧ (ev.run x).2.depth = ev.depth := by
  unfold Evaluator.run
  cases x ev.toMemory <;> exact ⟨rfl, rfl⟩

theorem KeepsCache.run {α : Type} {ev : Evaluator} {x : Run α} (h : KeepsCache ev.path x) :
    Kept ev.path ev.cache (ev.run x).2.cache := by
  have hx := h ev.toMemory
  unfold Evaluator.run
  cases hxm : x ev.toMemory with
  | ok a m =>
    rw [hxm] at hx
    exact hx
  | error fault m =>
    rw [hxm] at hx
    exact hx

section

variable {ctx : Context} {path : List String} {formula : String → List Char → Run Value}
  (h : ∀ address text, KeepsCache path (formula address text))

include h

theorem keepsCache_cell (e : List Char → Run Value) (address : String) :
    KeepsCache path ((⟨ctx, e, formula⟩ : Scope).cell address) := by
  intro m
  rw [Scope.cell_apply]
  cases m.cache[address]? with
  | some v => exact Kept.refl path m.cache
  | none =>
    dsimp only
    cases ctx.formulaAt? address with
    | some text => exact h address text m
    | none => exact Kept.refl path m.cache

theorem keepsCache_levels (n : Nat) (e : List Char) : KeepsCache path (levels ctx formula n e) :=
  levels_alike_of_cell (g := formula) (keepsCache_sequential path) (keepsCache_now path ctx)
    (fun e _ a _ => keepsCache_cell h e (String.ofList a)) n e

theorem keepsCache_expand (n : Nat) (argument : List Char) :
    KeepsCache path ((⟨ctx, levels ctx formula n, formula⟩ : Scope).expand argument) := by
  have hR := keepsCache_sequential path
  refine Scope.expand_alike hR (t := ⟨ctx, levels ctx formula n, formula⟩)
    (keepsCache_levels h n _) fun range _ _ => ?_
  exact Scope.rangeCells_alike hR _ rfl rfl fun a _ => keepsCache_cell h _ a.label

end

/-- The formula of a cell keeps the cache, with any room and under any path. -/
theorem cellFormula_keeps (ctx : Context) (n : Nat) (path : List String) (address : String)
    (text : List Char) : KeepsCache path (cellFormula ctx n path address text) := by
  induction n using Nat.strongRecOn generalizing path address text with
  | ind n ih =>
    intro m
    cases hv : m.cache[cacheKey address]? with
    | some v =>
      rw [cellFormula_cached text n path hv]
      exact Kept.refl path m.cache
    | none =>
      by_cases hin : cacheKey address ∈ path
      · rw [cellFormula_circular text hv n hin]
        exact Kept.refl path m.cache
      · cases n with
        | zero =>
          rw [cellFormula_refused text hv hin]
          exact Kept.refl path m.cache
        | succ n =>
          rw [cellFormula_entered text hv hin n]
          -- the cell joins the path, so nothing below can add a value for it
          have hlevels : KeepsCache (path ++ [cacheKey address])
              (levels ctx (cellFormula ctx n (path ++ [cacheKey address])) levelLimit (exprOf text)) :=
            keepsCache_levels (ih n (Nat.lt_succ_self n) (path ++ [cacheKey address])) _ _
          have hinside := hlevels m
          cases hrun : levels ctx (cellFormula ctx n (path ++ [cacheKey address])) levelLimit
              (exprOf text) m with
          | error fault m' =>
            rw [hrun] at hinside
            exact hinside.of_snoc
          | ok v m' =>
            rw [hrun] at hinside
            exact hinside.insert hv hin v

/-! ## Everything an evaluator can be asked -/

/-- What an evaluator can be asked, by what it answers with. -/
inductive Request : Type → Type
  | formula (text : String) : Request Value
  | cell (address text : String) : Request Value
  | expr (text : String) : Request Value
  | number (text : String) : Request Float
  | expand (text : String) : Request (List Value)

namespace Request

variable (ctx : Context) {α : Type}

/-- The answer in a state, and the state afterwards. -/
def answer (ev : Evaluator) : Request α → Except Fault α × Evaluator
  | formula text => ev.evalFormula ctx text
  | cell address text => ev.evalCell ctx address text
  | expr text => ev.evalExpr ctx text
  | number text => ev.evalNumber ctx text
  | expand text => ev.expand ctx text

/-- The request carried out with the whole state kept by hand, by at most `n`
evaluations of expressions inside one another. -/
def carry (n : Nat) : Request α → Stateful α
  | formula text => Stateful.expr ctx n (exprOf text.toList)
  | cell address text => Stateful.formula ctx (Stateful.expr ctx n) address text.toList
  | expr text => Stateful.expr ctx n text.toList
  | number text =>
    (Plan.number text.toList).carry ctx (Stateful.expr ctx n) (Stateful.cell ctx (Stateful.expr ctx n))
  | expand text =>
    (Plan.expand ctx text.toList).carry ctx (Stateful.expr ctx n) (Stateful.cell ctx (Stateful.expr ctx n))

/-- Carried out by hand, a request has the answer it has, and leaves the same
state. -/
theorem carry_eq (ev : Evaluator) (r : Request α) {n : Nat} (hn : ev.levelsLeft ctx < n) :
    r.carry ctx n ev = some (r.answer ctx ev) := by
  have hexpr := fun (ev : Evaluator) e (hn : ev.levelsLeft ctx < n) =>
    Stateful.expr_restores n ev e hn
  have hcell := Stateful.cell_restores hexpr hn
  have hplan : ∀ {β : Type} (p : Plan β), Stateful.Restores ev (p.run (ev.scope ctx))
      (p.carry ctx (Stateful.expr ctx n) (Stateful.cell ctx (Stateful.expr ctx n))) :=
    fun p => Stateful.carry_restores (fun e => hexpr ev e hn) hcell p
  cases r with
  | formula text => exact hexpr ev _ hn ev.toMemory
  | cell address text => exact Stateful.formula_restores hexpr hn address _ ev.toMemory
  | expr text => exact hexpr ev _ hn ev.toMemory
  | number text =>
    have hnumber := hplan (Plan.number text.toList) ev.toMemory
    rwa [Plan.run_number] at hnumber
  | expand text =>
    have hexpand := hplan (Plan.expand ctx text.toList) ev.toMemory
    have hrun : (Plan.expand ctx text.toList).run (ev.scope ctx) = (ev.scope ctx).expand text.toList :=
      Plan.run_expand (ev.scope ctx) text.toList
    rwa [hrun] at hexpand

theorem answer_keeps (ev : Evaluator) (r : Request α) : Kept ev.path ev.cache (r.answer ctx ev).2.cache := by
  have hformula : ∀ address text, KeepsCache ev.path (ev.formulaOf ctx address text) :=
    cellFormula_keeps ctx _ ev.path
  have hexpr : ∀ e, KeepsCache ev.path (ev.exprRun ctx e) := fun e => keepsCache_levels hformula _ e
  cases r with
  | formula text => exact (hexpr _).run
  | cell address text => exact (hformula address _).run
  | expr text => exact (hexpr _).run
  | number text =>
    have hnumber : KeepsCache ev.path ((ev.scope ctx).number text.toList) :=
      (hexpr _).bind fun v => keepsCache_pure ev.path v.toNumber
    exact hnumber.run
  | expand text => exact (keepsCache_expand hformula _ _).run

theorem books_answer (ev : Evaluator) (r : Request α) :
    (r.answer ctx ev).2.path = ev.path ∧ (r.answer ctx ev).2.depth = ev.depth := by
  cases r with
  | formula text => exact ev.books_run _
  | cell address text => exact ev.books_run _
  | expr text => exact ev.books_run _
  | number text => exact ev.books_run _
  | expand text => exact ev.books_run _

/-- Whatever an evaluator is asked, in whatever state, and whether it comes to an
answer or to a fault: with the whole state kept by hand, the path and the depth
are afterwards what they were, every value in the cache is still there, and none
has been added for a cell of the path. -/
theorem state_after (ev : Evaluator) (r : Request α) (spare : Nat) :
    ∃ result ev', r.carry ctx (ev.levelsLeft ctx + 1 + spare) ev = some (result, ev') ∧
      r.answer ctx ev = (result, ev') ∧ ev'.path = ev.path ∧ ev'.depth = ev.depth ∧
      Sub ev.cache ev'.cache ∧ ∀ key ∈ ev.path, ev'.cache[key]? = ev.cache[key]? := by
  obtain ⟨hpath, hdepth⟩ := r.books_answer ctx ev
  have hkept := r.answer_keeps ctx ev
  have hcarried : r.carry ctx (ev.levelsLeft ctx + 1 + spare) ev = some (r.answer ctx ev) :=
    r.carry_eq ctx ev (by omega)
  exact ⟨_, _, hcarried, rfl, hpath, hdepth, hkept.sub, hkept.onPath⟩

end Request

end Spreadsheet.Formula

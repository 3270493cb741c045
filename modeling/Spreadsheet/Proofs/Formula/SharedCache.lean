import Spreadsheet.Proofs.Formula.Clock

/-
  One cache for many evaluations.

  An evaluation fills the cache from the middle of others, with other cells in
  progress and before some of these fail. What the cache holds for the cells of a
  `Steady` set, whose formulas refer to cells of the set only and do not ask a
  clock that moves, is nevertheless independent of all that. `Filled` says so: a
  cache is filled one cell after another, and a cell of the set with the value its
  formula has when only the cells before it can be looked up and no formula may be
  entered. Of the other cells it says nothing.

    1. `cellFormula_settles` : evaluation leads from filled caches to filled
       caches, adds nothing for a cell in progress, and every value it arrives
       at for a cell of the set can be looked up again from the cache it leaves.
    2. `cellFormula_recovers` : a value of a filled cache is found again from
       any smaller cache and under any path that avoids it, unless the cells
       nest too deep.
    3. `cellFormula_agrees` : of two caches, one part of the other, the larger
       gives the same answer, value or fault, unless from the smaller one the
       cells nest too deep.

  Under a clock that stands still all cells together are such a set
  (`steady_of_still`), and under any clock the cells with timeless formulas are
  one (`steady_timeless`).
-/

namespace Spreadsheet

/-- Whether a clock reads the same moment each time. -/
def Clock.Still (clock : Clock) : Prop := ∀ n n', clock.reading n = clock.reading n'

theorem Clock.still_fixed (now : Moment) : (Clock.fixed now).Still := fun _ _ => rfl

namespace Formula

/-! ## Filled caches -/

/-- Whether every value of a cache is in another one. -/
def Cache.Sub (m d : Cache) : Prop := ∀ (key : String) (v : Value), m[key]? = some v → d[key]? = some v

/-- Whether a cache holds no value for a cell of the path. -/
def Cache.Avoids (m : Cache) (path : List String) : Prop := ∀ key ∈ path, m[key]? = none

namespace Cache

theorem Sub.refl (m : Cache) : Sub m m := fun _ _ h => h

theorem Sub.trans {m d e : Cache} (h : Sub m d) (h' : Sub d e) : Sub m e :=
  fun key v hv => h' key v (h key v hv)

theorem sub_insert {m : Cache} {key : String} (v : Value) (h : m[key]? = none) :
    Sub m (m.insert key v) := by
  intro k w hw
  rw [Std.HashMap.getElem?_insert]
  split
  · rename_i hk
    rw [beq_iff_eq] at hk
    rw [← hk, h] at hw
    cases hw
  · exact hw

theorem insert_sub {m d : Cache} {key : String} {v : Value} (h : Sub m d) (hd : d[key]? = some v) :
    Sub (m.insert key v) d := by
  intro k w hw
  rw [Std.HashMap.getElem?_insert] at hw
  split at hw
  · rename_i hk
    rw [beq_iff_eq] at hk
    rw [← hk, hd, hw]
  · exact h k w hw

theorem Sub.insert {m d : Cache} (h : Sub m d) (key : String) (v : Value) :
    Sub (m.insert key v) (d.insert key v) := by
  intro k w hw
  rw [Std.HashMap.getElem?_insert] at hw ⊢
  split at hw
  · rename_i hk
    rw [if_pos hk, hw]
  · rename_i hk
    rw [if_neg hk]
    exact h k w hw

theorem Avoids.insert {m : Cache} {path : List String} (h : Avoids m path) {key : String}
    (hkey : key ∉ path) (v : Value) : Avoids (m.insert key v) path := by
  intro k hk
  rw [Std.HashMap.getElem?_insert, if_neg]
  · exact h k hk
  · rw [beq_iff_eq]
    intro hsame
    subst hsame
    exact hkey hk

theorem Sub.eq_none {m d : Cache} (h : Sub m d) {key : String} (hd : d[key]? = none) :
    m[key]? = none := by
  cases hv : m[key]? with
  | none => rfl
  | some v =>
    have hdv := h key v hv
    rw [hd] at hdv
    cases hdv

theorem Avoids.of_sub {m d : Cache} {path : List String} (h : Avoids d path) (hsub : Sub m d) :
    Avoids m path :=
  fun key hkey => hsub.eq_none (h key hkey)

theorem avoids_snoc {m : Cache} {path : List String} {key : String} :
    Avoids m (path ++ [key]) ↔ Avoids m path ∧ m[key]? = none := by
  simp only [Avoids, List.mem_append, List.mem_singleton]
  constructor
  · exact fun h => ⟨fun k hk => h k (Or.inl hk), h key (Or.inr rfl)⟩
  · intro h k hk
    rcases hk with hk | rfl
    · exact h.1 k hk
    · exact h.2

end Cache

open Cache (Sub Avoids)

/-- The value of an expression with room for no other cell: formula cells can
only be looked up. -/
def lookedUp (ctx : Context) : List Char → Run Value := levels ctx (cellFormula ctx 0 []) levelLimit

/-- Whether the formulas of the cells of a set refer to cells of the set only, and
do not call a clock that moves. -/
structure Steady (ctx : Context) (T : String → Prop) : Prop where
  mentions : ∀ {key formula}, ctx.formulaAt? key = some formula → T key →
    ∀ address, Mentions (exprOf formula) address → T address
  clock : ∀ {key formula}, ctx.formulaAt? key = some formula → T key →
    Quiet (exprOf formula) ∨ ctx.clock.Still

/-- The caches that evaluation can fill. -/
inductive Filled (ctx : Context) (T : String → Prop) : Cache → Prop
  | empty : Filled ctx T ∅
  | insert {m : Cache} {key : String} {formula : List Char} {v : Value} : Filled ctx T m →
      m[key]? = none → ctx.formulaAt? key = some formula →
      (T key → ∃ w w', w.cache = m ∧ lookedUp ctx (exprOf formula) w = .ok v w') →
      Filled ctx T (m.insert key v)

variable {ctx : Context} {T : String → Prop}

theorem steady_of_still (h : ctx.clock.Still) : Steady ctx fun _ => True :=
  ⟨fun _ _ _ _ => trivial, fun _ _ => .inr h⟩

theorem steady_timeless (ctx : Context) :
    Steady ctx fun key => ∀ formula, ctx.formulaAt? key = some formula → Timeless ctx (exprOf formula) where
  mentions hformula hkey _ hmentions _ hformula' := (hkey _ hformula).formula hmentions hformula'
  clock hformula hkey := .inl (hkey _ hformula).quiet

theorem Filled.exists_formula {m : Cache} (h : Filled ctx T m) {key : String} {v : Value}
    (hv : m[key]? = some v) : ∃ formula, ctx.formulaAt? key = some formula := by
  induction h with
  | empty => simp at hv
  | @insert m k formula w _ _ hformula _ ih =>
    rw [Std.HashMap.getElem?_insert] at hv
    split at hv
    · rename_i hk
      rw [beq_iff_eq] at hk
      exact ⟨formula, hk ▸ hformula⟩
    · exact ih hv

theorem Filled.getElem?_eq_none {m : Cache} (h : Filled ctx T m) {key : String}
    (hkey : ctx.formulaAt? key = none) : m[key]? = none := by
  cases hv : m[key]? with
  | none => rfl
  | some v =>
    obtain ⟨formula, hformula⟩ := h.exists_formula hv
    rw [hkey] at hformula
    cases hformula

/-! ## Evaluation leads from filled caches to filled caches -/

/-- What evaluation under a path does to a filled cache: it adds values, none
of them for a cell of the path. -/
structure Grown (ctx : Context) (T : String → Prop) (path : List String) (m m' : Cache) : Prop where
  filled : Filled ctx T m'
  sub : Sub m m'
  avoids : Avoids m' path

/-- Whether `x`, run on a filled cache that avoids the path, grows it, and, under
the condition, a value it arrives at is found by `y` in every filled cache from
there on. -/
def Settles (ctx : Context) (T : String → Prop) (path : List String) (steady : Prop) (α : Type)
    (x y : Run α) : Prop :=
  ∀ m, Filled ctx T m.cache → Avoids m.cache path → match x m with
    | .ok a m' => Grown ctx T path m.cache m'.cache ∧
        (steady → ∀ d : Memory, Filled ctx T d.cache → Sub m'.cache d.cache →
          ∃ d', y d = .ok a d' ∧ d'.cache = d.cache)
    | .error _ m' => Grown ctx T path m.cache m'.cache

section

variable {path : List String} {steady : Prop}

theorem Settles.imp {steady' : Prop} {α : Type} {x y : Run α} (h : Settles ctx T path steady α x y)
    (himp : steady' → steady) : Settles ctx T path steady' α x y := by
  intro m hm hp
  have h := h m hm hp
  cases hxm : x m with
  | error fault m' =>
    rw [hxm] at h
    exact h
  | ok a m' =>
    rw [hxm] at h
    exact ⟨h.1, fun hsteady => h.2 (himp hsteady)⟩

theorem settles_sequential (ctx : Context) (T : String → Prop) (path : List String) (steady : Prop) :
    Sequential (Settles ctx T path steady) where
  pure a := fun m hm hp => ⟨⟨hm, Sub.refl m.cache, hp⟩, fun _ d _ _ => ⟨d, rfl, rfl⟩⟩
  throw fault := fun m hm hp => ⟨hm, Sub.refl m.cache, hp⟩
  bind := by
    intro α β x y f g hx hf m hm hp
    have hx := hx m hm hp
    rw [bind_apply]
    cases hxm : x m with
    | error fault m' =>
      rw [hxm] at hx
      exact hx
    | ok a m' =>
      rw [hxm] at hx
      obtain ⟨grown, hy⟩ := hx
      have hf := hf a m' grown.filled grown.avoids
      dsimp only
      cases hfm : f a m' with
      | error fault m'' =>
        rw [hfm] at hf
        exact ⟨hf.filled, grown.sub.trans hf.sub, hf.avoids⟩
      | ok b m'' =>
        rw [hfm] at hf
        obtain ⟨grown', hg⟩ := hf
        refine ⟨⟨grown'.filled, grown.sub.trans grown'.sub, grown'.avoids⟩, fun hsteady d hd hsub => ?_⟩
        obtain ⟨d', hyd, hcache⟩ := hy hsteady d hd (grown'.sub.trans hsub)
        rw [← hcache] at hd hsub ⊢
        rw [bind_apply, hyd]
        exact hg hsteady d' hd hsub

theorem settles_now (h : steady → ctx.clock.Still) : Settles ctx T path steady Moment ctx.now ctx.now := by
  intro m hm hp
  rw [Context.now_apply]
  refine ⟨⟨hm, Sub.refl m.cache, hp⟩, fun hsteady d _ _ => ⟨{ d with readings := d.readings + 1 }, ?_, rfl⟩⟩
  rw [Context.now_apply, h hsteady m.readings d.readings]

theorem settles_cell {n : Nat} {a : List Char} (ha : isAddressForm a = true)
    (h : ∀ formula, ctx.formulaAt? (String.ofList a) = some formula →
      Settles ctx T path steady Value (cellFormula ctx n path (String.ofList a) formula)
        (cellFormula ctx 0 [] (String.ofList a) formula))
    (e e' : List Char → Run Value) :
    Settles ctx T path steady Value ((⟨ctx, e, cellFormula ctx n path⟩ : Scope).cell (String.ofList a))
      ((⟨ctx, e', cellFormula ctx 0 []⟩ : Scope).cell (String.ofList a)) := by
  cases hformula : ctx.formulaAt? (String.ofList a) with
  | some formula =>
    rw [cell_of_formula ha formula e n hformula, cell_of_formula ha formula e' 0 hformula]
    exact h formula hformula
  | none =>
    intro m hm hp
    rw [Scope.cell_of_literal _ hformula (hm.getElem?_eq_none hformula)]
    refine ⟨⟨hm, Sub.refl m.cache, hp⟩, fun _ d hd _ => ⟨d, ?_, rfl⟩⟩
    rw [Scope.cell_of_literal _ hformula (hd.getElem?_eq_none hformula)]

end

variable (hT : Steady ctx T)

include hT

/-- The formula of a cell of the set settles if the formulas of cells do. -/
theorem settles_levels {n : Nat} {path : List String} {key : String} {formula : List Char}
    (hformula : ctx.formulaAt? key = some formula)
    (h : ∀ a formula', isAddressForm a = true → ctx.formulaAt? (String.ofList a) = some formula' →
      Settles ctx T path (T (String.ofList a)) Value (cellFormula ctx n path (String.ofList a) formula')
        (cellFormula ctx 0 [] (String.ofList a) formula')) :
    Settles ctx T path (T key) Value (levels ctx (cellFormula ctx n path) levelLimit (exprOf formula))
      (lookedUp ctx (exprOf formula)) := by
  refine levels_alike_of_mentions (settles_sequential ctx T path (T key)) rfl rfl rfl ?_
    (fun x y a ha hmentions => ?_) levelLimit
  · by_cases hkey : T key
    · exact (hT.clock hformula hkey).imp_right fun hstill => settles_now fun _ => hstill
    · exact .inr (settles_now fun hkey' => absurd hkey' hkey)
  · refine settles_cell ha (fun formula' hformula' => ?_) x y
    exact (h a formula' ha hformula').imp fun hkey => hT.mentions hformula hkey _ hmentions

/-- The formula of a cell, evaluated under any path, keeps the cache filled and
leaves its value there to be looked up. -/
theorem cellFormula_settles (n : Nat) (path : List String) (a formula : List Char)
    (ha : isAddressForm a = true) (hformula : ctx.formulaAt? (String.ofList a) = some formula) :
    Settles ctx T path (T (String.ofList a)) Value (cellFormula ctx n path (String.ofList a) formula)
      (cellFormula ctx 0 [] (String.ofList a) formula) := by
  induction n using Nat.strongRecOn generalizing path a formula with
  | ind n ih =>
    intro m hm hp
    cases hv : m.cache[String.ofList a]? with
    | some v =>
      rw [cellFormula_of_cached ha formula n path hv]
      exact ⟨⟨hm, Sub.refl m.cache, hp⟩, fun _ d _ hsub =>
        ⟨d, cellFormula_of_cached ha formula 0 [] (hsub _ v hv), rfl⟩⟩
    | none =>
      by_cases hin : String.ofList a ∈ path
      · rw [cellFormula_of_mem ha formula n hv hin]
        exact ⟨hm, Sub.refl m.cache, hp⟩
      · cases n with
        | zero =>
          rw [cellFormula_zero_of_free ha formula hv hin]
          exact ⟨hm, Sub.refl m.cache, hp⟩
        | succ n =>
          rw [cellFormula_succ_of_free ha formula n hv hin]
          -- the cell joins the path, so nothing below puts it into the cache
          have hexpr := settles_levels hT hformula (ih n (Nat.lt_succ_self n) (path ++ [String.ofList a])) m hm
            (Cache.avoids_snoc.2 ⟨hp, hv⟩)
          cases hrun : levels ctx (cellFormula ctx n (path ++ [String.ofList a])) levelLimit
              (exprOf formula) m with
          | error fault m' =>
            rw [hrun] at hexpr
            exact ⟨hexpr.filled, hexpr.sub, (Cache.avoids_snoc.1 hexpr.avoids).1⟩
          | ok v m' =>
            rw [hrun] at hexpr
            obtain ⟨grown, hlook⟩ := hexpr
            obtain ⟨havoids, hfree⟩ := Cache.avoids_snoc.1 grown.avoids
            have hfilled : Filled ctx T (m'.cache.insert (String.ofList a) v) := by
              refine grown.filled.insert hfree hformula fun hkey => ?_
              obtain ⟨w, hw, -⟩ := hlook hkey m' grown.filled (Sub.refl m'.cache)
              exact ⟨m', w, rfl, hw⟩
            refine ⟨⟨hfilled, grown.sub.trans (Cache.sub_insert v hfree), havoids.insert hin v⟩,
              fun _ d _ hsub => ⟨d, ?_, rfl⟩⟩
            exact cellFormula_of_cached ha formula 0 [] (hsub _ v (by simp))

omit hT

/-! ## Values of a filled cache are found again -/

/-- Whether the fault is that formula cells nest too deep. -/
def Fault.nestsTooDeep : Fault → Bool
  | .tooManyNested .. => true
  | _ => false

/-- Whether what `y` looks up in `d`, `x` finds again from every part of `e`,
without leaving `e`, unless the cells nest too deep. -/
def Recovers (e d : Cache) (α : Type) (x y : Run α) : Prop :=
  ∀ w a w', w.cache = d → y w = .ok a w' → w'.cache = d ∧
    ∀ m : Memory, Sub m.cache e → (∃ fault m', x m = .error fault m' ∧ fault.nestsTooDeep = true) ∨
      ∃ m', x m = .ok a m' ∧ Sub m'.cache e

theorem recovers_sequential (e d : Cache) : Sequential (Recovers e d) where
  pure a := by
    intro w b w' hw h
    cases h
    exact ⟨hw, fun m hm => .inr ⟨m, rfl, hm⟩⟩
  throw fault := by
    intro w b w' _ h
    cases h
  bind := by
    intro α β x y f g hx hf w b w' hw h
    rw [bind_apply] at h
    cases hyw : y w with
    | error fault w₁ =>
      rw [hyw] at h
      cases h
    | ok a w₁ =>
      rw [hyw] at h
      obtain ⟨hw₁, hfound⟩ := hx w a w₁ hw hyw
      obtain ⟨hw', hrest⟩ := hf a w₁ b w' hw₁ h
      refine ⟨hw', fun m hm => ?_⟩
      rw [bind_apply]
      rcases hfound m hm with ⟨fault, m₁, hm₁, hnest⟩ | ⟨m₁, hm₁, hsub⟩
      · exact .inl ⟨fault, m₁, by rw [hm₁], hnest⟩
      · rw [hm₁]
        exact hrest m₁ hsub

theorem recovers_now (h : ctx.clock.Still) (e d : Cache) : Recovers e d Moment ctx.now ctx.now := by
  intro w t w' hw hnow
  rw [Context.now_apply] at hnow
  cases hnow
  refine ⟨hw, fun m hm => .inr ⟨{ m with readings := m.readings + 1 }, ?_, hm⟩⟩
  rw [Context.now_apply, h m.readings w.readings]

/-- Scopes recover the value of a cell if they recover that of the formula in
it. -/
theorem recovers_cell {e d : Cache} (he : Filled ctx T e) (hd : Filled ctx T d) {n : Nat}
    {path : List String} {a : List Char} (ha : isAddressForm a = true)
    (h : ∀ formula, ctx.formulaAt? (String.ofList a) = some formula →
      Recovers e d Value (cellFormula ctx n path (String.ofList a) formula)
        (cellFormula ctx 0 [] (String.ofList a) formula))
    (x y : List Char → Run Value) :
    Recovers e d Value ((⟨ctx, x, cellFormula ctx n path⟩ : Scope).cell (String.ofList a))
      ((⟨ctx, y, cellFormula ctx 0 []⟩ : Scope).cell (String.ofList a)) := by
  cases hformula : ctx.formulaAt? (String.ofList a) with
  | some formula =>
    rw [cell_of_formula ha formula x n hformula, cell_of_formula ha formula y 0 hformula]
    exact h formula hformula
  | none =>
    intro w v w' hw hv
    rw [Scope.cell_of_literal _ hformula (hw ▸ hd.getElem?_eq_none hformula)] at hv
    cases hv
    refine ⟨hw, fun m hm => .inr ⟨m, ?_, hm⟩⟩
    rw [Scope.cell_of_literal _ hformula (hm.eq_none (he.getElem?_eq_none hformula))]

include hT

/-- The part of a filled cache that was there before a cell of the set was put into
it is enough to evaluate that cell, and no cell outside it is entered. -/
theorem cellFormula_recovers {e : Cache} (he : Filled ctx T e) {d : Cache} (hd : Filled ctx T d)
    (hde : Sub d e) : ∀ (n : Nat) (path : List String), Avoids d path → ∀ a formula : List Char,
      isAddressForm a = true → ctx.formulaAt? (String.ofList a) = some formula → T (String.ofList a) →
      Recovers e d Value (cellFormula ctx n path (String.ofList a) formula)
        (cellFormula ctx 0 [] (String.ofList a) formula) := by
  -- on how `d` was filled: a value of it was computed from the part before it
  induction hd with
  | empty =>
    intro n path _ a formula ha _ _ w v w' hw h
    have hv := (cellFormula_zero_eq_ok ha formula h).2
    rw [hw] at hv
    simp at hv
  | @insert d₀ key formula₀ v₀ hd₀ hfree hformula₀ hlook ih =>
    have hd₀d := Cache.sub_insert v₀ hfree
    have ih := ih (hd₀d.trans hde)
    intro n path hpath a formula ha hformula hkeyT w v w' hw h
    obtain ⟨rfl, hv⟩ := cellFormula_zero_eq_ok ha formula h
    rw [hw] at hv
    refine ⟨hw, fun m hm => ?_⟩
    have hpath₀ : Avoids d₀ path := hpath.of_sub hd₀d
    have hout : String.ofList a ∉ path := fun hin => by rw [hpath _ hin] at hv; cases hv
    cases hmv : m.cache[String.ofList a]? with
    | some u =>
      have hu : u = v := Option.some.inj ((hm _ u hmv).symm.trans (hde _ v hv))
      exact .inr ⟨m, hu ▸ cellFormula_of_cached ha formula n path hmv, hm⟩
    | none =>
      by_cases hkey : key = String.ofList a
      · -- the cell put in last: its formula needs only the cells before it
        subst hkey
        obtain rfl : v₀ = v := by simpa using hv
        obtain rfl : formula₀ = formula := Option.some.inj (hformula₀.symm.trans hformula)
        cases n with
        | zero =>
          rw [cellFormula_zero_of_free ha formula₀ hmv hout]
          exact .inl ⟨_, m, rfl, rfl⟩
        | succ n =>
          rw [cellFormula_succ_of_free ha formula₀ n hmv hout]
          have hpath' : Avoids d₀ (path ++ [String.ofList a]) := Cache.avoids_snoc.2 ⟨hpath₀, hfree⟩
          have hexpr := levels_alike_of_mentions (recovers_sequential e d₀) rfl rfl rfl
            ((hT.clock hformula hkeyT).imp_right fun hstill => recovers_now hstill e d₀)
            (fun x y b hb hmentions => recovers_cell he hd₀ hb (fun formula' hformula' =>
              ih n (path ++ [String.ofList a]) hpath' b formula' hb hformula'
                (hT.mentions hformula hkeyT _ hmentions)) x y) levelLimit
          obtain ⟨u, u', hu, hrun⟩ := hlook hkeyT
          rcases (hexpr u v₀ u' hu hrun).2 m hm with ⟨fault, m₁, hm₁, hnest⟩ | ⟨m₁, hm₁, hsub⟩
          · exact .inl ⟨fault, m₁, by rw [hm₁], hnest⟩
          · refine .inr ⟨m₁.insert (String.ofList a) v₀, by rw [hm₁], ?_⟩
            exact Cache.insert_sub hsub (hde _ v₀ hv)
      · rw [Std.HashMap.getElem?_insert, if_neg (by simpa using hkey)] at hv
        exact (ih n path hpath₀ a formula ha hformula hkeyT ⟨d₀, 0⟩ v ⟨d₀, 0⟩ rfl
          (cellFormula_of_cached ha formula 0 [] hv)).2 m hm

omit hT

/-! ## A larger cache gives the same answer -/

/-- Whether `y`, run on a filled cache that avoids the path, gives the answer
that `x` gives on a part of it, unless from the part the cells nest too
deep. -/
def Agrees (ctx : Context) (T : String → Prop) (path : List String) (α : Type) (x y : Run α) : Prop :=
  ∀ m d : Memory, Filled ctx T d.cache → Sub m.cache d.cache → Avoids d.cache path → match x m with
    | .ok a m' => ∃ d', y d = .ok a d' ∧ Filled ctx T d'.cache ∧ Sub m'.cache d'.cache ∧
        Avoids d'.cache path
    | .error fault _ => fault.nestsTooDeep = true ∨ ∃ d', y d = .error fault d'

section

variable {path : List String}

theorem agrees_sequential (ctx : Context) (T : String → Prop) (path : List String) :
    Sequential (Agrees ctx T path) where
  pure a := fun m d hd hsub hp => ⟨d, rfl, hd, hsub, hp⟩
  throw fault := fun m d hd hsub hp => .inr ⟨d, rfl⟩
  bind := by
    intro α β x y f g hx hf m d hd hsub hp
    have hx := hx m d hd hsub hp
    rw [bind_apply]
    cases hxm : x m with
    | error fault m' =>
      rw [hxm] at hx
      dsimp only at hx ⊢
      rcases hx with hnest | ⟨d', hd'⟩
      · exact .inl hnest
      · exact .inr ⟨d', by rw [bind_apply, hd']⟩
    | ok a m' =>
      rw [hxm] at hx
      obtain ⟨d', hyd, hd', hsub', hp'⟩ := hx
      rw [bind_apply, hyd]
      exact hf a m' d' hd' hsub' hp'

theorem agrees_now (h : ctx.clock.Still) : Agrees ctx T path Moment ctx.now ctx.now := by
  intro m d hd hsub hp
  refine ⟨{ d with readings := d.readings + 1 }, ?_, hd, hsub, hp⟩
  rw [Context.now_apply, h d.readings m.readings]

theorem agrees_cell {n : Nat} {a : List Char} (ha : isAddressForm a = true)
    (h : ∀ formula, ctx.formulaAt? (String.ofList a) = some formula →
      Agrees ctx T path Value (cellFormula ctx n path (String.ofList a) formula)
        (cellFormula ctx n path (String.ofList a) formula))
    (x y : List Char → Run Value) :
    Agrees ctx T path Value ((⟨ctx, x, cellFormula ctx n path⟩ : Scope).cell (String.ofList a))
      ((⟨ctx, y, cellFormula ctx n path⟩ : Scope).cell (String.ofList a)) := by
  cases hformula : ctx.formulaAt? (String.ofList a) with
  | some formula =>
    rw [cell_of_formula ha formula x n hformula, cell_of_formula ha formula y n hformula]
    exact h formula hformula
  | none =>
    intro m d hd hsub hp
    have hdfree := hd.getElem?_eq_none hformula
    rw [Scope.cell_of_literal _ hformula (hsub.eq_none hdfree)]
    refine ⟨d, ?_, hd, hsub, hp⟩
    rw [Scope.cell_of_literal _ hformula hdfree]

end

include hT

/-- The formula of a cell of the set has the same outcome whatever more the cache
holds, unless without it the cells nest too deep. -/
theorem cellFormula_agrees (n : Nat) (path : List String) (a formula : List Char)
    (ha : isAddressForm a = true) (hformula : ctx.formulaAt? (String.ofList a) = some formula)
    (hkey : T (String.ofList a)) :
    Agrees ctx T path Value (cellFormula ctx n path (String.ofList a) formula)
      (cellFormula ctx n path (String.ofList a) formula) := by
  induction n using Nat.strongRecOn generalizing path a formula with
  | ind n ih =>
    intro m d hd hsub hp
    cases hm : m.cache[String.ofList a]? with
    | some v =>
      rw [cellFormula_of_cached ha formula n path hm,
        cellFormula_of_cached ha formula n path (hsub _ v hm)]
      exact ⟨d, rfl, hd, hsub, hp⟩
    | none =>
      by_cases hin : String.ofList a ∈ path
      · rw [cellFormula_of_mem ha formula n hm hin]
        exact .inr ⟨d, cellFormula_of_mem ha formula n (hp _ hin) hin⟩
      · cases hdv : d.cache[String.ofList a]? with
        | some v =>
          -- known from before: the smaller cache must come to the same value
          have hrecovers := (cellFormula_recovers hT hd hd (Sub.refl d.cache) n path hp a formula ha
            hformula hkey d v d rfl (cellFormula_of_cached ha formula 0 [] hdv)).2 m hsub
          rcases hrecovers with ⟨fault, m', hm', hnest⟩ | ⟨m', hm', hsub'⟩
          · rw [hm']
            exact .inl hnest
          · rw [hm']
            exact ⟨d, cellFormula_of_cached ha formula n path hdv, hd, hsub', hp⟩
        | none =>
          cases n with
          | zero =>
            rw [cellFormula_zero_of_free ha formula hm hin]
            exact .inl rfl
          | succ n =>
            -- new to both: that the larger cache stays filled is known already
            have hsettles := cellFormula_settles hT (n + 1) path a formula ha hformula d hd hp
            rw [cellFormula_succ_of_free ha formula n hdv hin] at hsettles
            rw [cellFormula_succ_of_free ha formula n hm hin,
              cellFormula_succ_of_free ha formula n hdv hin]
            have hexpr := levels_alike_of_mentions (agrees_sequential ctx T (path ++ [String.ofList a]))
              rfl rfl rfl ((hT.clock hformula hkey).imp_right agrees_now)
              (fun x y b hb hmentions => agrees_cell hb (fun formula' hformula' =>
                ih n (Nat.lt_succ_self n) (path ++ [String.ofList a]) b formula' hb hformula'
                  (hT.mentions hformula hkey _ hmentions)) x y)
              levelLimit m d hd hsub (Cache.avoids_snoc.2 ⟨hp, hdv⟩)
            cases hrun : levels ctx (cellFormula ctx n (path ++ [String.ofList a])) levelLimit
                (exprOf formula) m with
            | error fault m' =>
              rw [hrun] at hexpr
              rcases hexpr with hnest | ⟨d', hd'⟩
              · exact .inl hnest
              · exact .inr ⟨d', by rw [hd']⟩
            | ok v m' =>
              rw [hrun] at hexpr
              obtain ⟨d', hd', -, hsub', -⟩ := hexpr
              rw [hd'] at hsettles ⊢
              exact ⟨_, rfl, hsettles.1.filled, hsub'.insert _ v, hsettles.1.avoids⟩

end Formula

end Spreadsheet

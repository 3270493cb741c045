import Spreadsheet.Proofs.Formula.Reference
import Spreadsheet.Proofs.Sheet.OneCell

/-
  Ladders of references.

  On a ladder every cell refers to the one before it. A visit from the bottom
  is inside one cell for each rung, and without enough room it is refused. A
  recalculation of the sheet starts at the top, where the cell before is in the
  cache already, so it is never inside more than one cell, however long the
  ladder is.
-/

namespace Spreadsheet

namespace Formula

variable {ctx : Context}

/-! ## From the bottom -/

/-- Whether the cells up to number `last` are a ladder: different formula cells,
of which each after the first refers to the one before it. -/
structure Ladder (ctx : Context) (cells : Nat → Address) (last : Nat) : Prop where
  top : ∃ formula, ctx.formulaAt? (cells 0).label = some formula
  rung : ∀ k, k < last → ctx.formulaAt? (cells (k + 1)).label = some (referenceTo (cells k))
  distinct : ∀ i j, i ≤ last → j ≤ last → cells i = cells j → i = j

variable {cells : Nat → Address} {last : Nat}

theorem Ladder.exists_formula (h : Ladder ctx cells last) {k : Nat} (hk : k ≤ last) :
    ∃ formula, ctx.formulaAt? (cells k).label = some formula := by
  cases k with
  | zero => exact h.top
  | succ k => exact ⟨_, h.rung k (by omega)⟩

/-- With room for `n` cells and nothing known of the cells of the ladder, the
visit is refused `n` cells up. -/
theorem Ladder.cellFormula_refused (h : Ladder ctx cells last) (n : Nat) {k : Nat} (hn : n ≤ k)
    (hk : k ≤ last) (path : List String) (hpath : ∀ j, j ≤ k → (cells j).label ∉ path) {m : Memory}
    (hm : ∀ j, j ≤ k → m.cache[(cells j).label]? = none) {formula : List Char}
    (hformula : ctx.formulaAt? (cells k).label = some formula) :
    cellFormula ctx n path (cells k).label formula m =
      .error (.tooManyNested ctx.options.maxDepth (cells (k - n)).label) m := by
  induction n generalizing k path formula with
  | zero =>
    exact cellFormula_zero_of_free (isAddressForm_name (cells k)) formula (hm k (Nat.le_refl k))
      (hpath k (Nat.le_refl k))
  | succ n ih =>
    obtain ⟨k, rfl⟩ : ∃ j, k = j + 1 := ⟨k - 1, by omega⟩
    obtain rfl : formula = referenceTo (cells k) :=
      Option.some.inj (hformula.symm.trans (h.rung k (by omega)))
    obtain ⟨formula, hbefore⟩ := h.exists_formula (k := k) (by omega)
    -- one cell up there is room for one less, and this one is in progress
    have hfree : ∀ j, j ≤ k → (cells j).label ∉ path ++ [(cells (k + 1)).label] := by
      intro j hj hmem
      rcases List.mem_append.1 hmem with hmem | hmem
      · exact hpath j (by omega) hmem
      · have hcell : cells j = cells (k + 1) := Address.label_injective (List.mem_singleton.1 hmem)
        have := h.distinct j (k + 1) (by omega) hk hcell
        omega
    have hinside := ih (k := k) (by omega) (by omega) _ hfree (fun j hj => hm j (by omega)) hbefore
    have hlook : (⟨ctx, levels ctx (cellFormula ctx n (path ++ [(cells (k + 1)).label])) (levelLimit - 1),
        cellFormula ctx n (path ++ [(cells (k + 1)).label])⟩ : Scope).cell (cells k).label =
          cellFormula ctx n (path ++ [(cells (k + 1)).label]) (cells k).label formula :=
      cell_of_formula (isAddressForm_name (cells k)) formula _ n hbefore
    rw [cellFormula_referenceTo n (cells k) (hm (k + 1) (Nat.le_refl _)) (hpath (k + 1) (Nat.le_refl _)),
      hlook, hinside, Nat.add_sub_add_right]

/-- A cell with as many cells before it on the ladder as may be inside one
another has no value by itself. -/
theorem Ladder.evaluateAt_refused (h : Ladder ctx cells last) {k : Nat}
    (hn : ctx.options.maxDepth ≤ k) (hk : k ≤ last) {text : String}
    (htext : ctx.formulaAt? (cells k).label = some text.toList) :
    evaluateAt ctx (cells k).label text =
      .error (.tooManyNested ctx.options.maxDepth (cells (k - ctx.options.maxDepth)).label) := by
  have hrefused := h.cellFormula_refused ctx.options.maxDepth hn hk []
    (fun _ _ => List.not_mem_nil) (m := ∅) (fun _ _ => by simp) htext
  exact evaluateAt_of_error hrefused

end Formula

namespace Sheet

open Formula (Constant Context Evaluator Fault Ladder Options Value evaluateAt evalCell_referenceTo
  evaluateAt_referenceTo isVolatile referenceTo)

/-! ## From the top -/

/-- Whether the second of two cells refers to the first. -/
def Follows (p q : Address × String) : Prop := q.2 = String.ofList (referenceTo p.1)

theorem evaluateCells_follows {ctx : Context} (hroom : 0 < ctx.options.maxDepth) {ev : Evaluator}
    (hpath : ev.path = []) {p : Address × String} {v : Value} (hp : ev.cache[p.1.label]? = some v)
    {cells : List (Address × String)} (hchain : (p :: cells).IsChain Follows)
    (hdistinct : (cells.map Prod.fst).Nodup) (hfree : ∀ q ∈ cells, ev.cache[q.1.label]? = none) :
    evaluateCells ctx ev cells = cells.map fun q => (q.1, v.toCellValue) := by
  -- the cell before has its value in the cache, the cells from here on have none
  induction cells generalizing p ev with
  | nil => rfl
  | cons q rest ih =>
    obtain ⟨hpq, hrest⟩ := List.isChain_cons_cons.1 hchain
    obtain ⟨hq, hdistinct⟩ := List.nodup_cons.1 hdistinct
    have hvisit := evalCell_referenceTo hpath hroom hp (hfree q List.mem_cons_self)
    rw [evaluateCells_cons, hpq, hvisit, List.map_cons]
    refine congrArg _ (ih hpath ?_ hrest hdistinct fun r hr => ?_)
    · exact Std.HashMap.getElem?_insert_self
    · have hne : q.1.label ≠ r.1.label := by
        intro h
        rw [Address.label_injective h] at hq
        exact hq (List.mem_map_of_mem hr)
      simp [Std.HashMap.getElem?_insert, hne, hfree r (List.mem_cons_of_mem q hr)]

variable {s : Sheet}

/-- If the first formula of a sheet is true and each other one refers to the
cell of the one before, a recalculation stores true in all of them. -/
theorem Indexed.recalculate_follows (hs : s.Indexed) {first : Address}
    (hfirst : s.formulas.toList.head? = some (first, "=TRUE")) (hchain : s.formulas.toList.IsChain Follows)
    (clock : Clock) {a : Address} {text : String} (htext : s.formulas[a]? = some text) :
    ∃ cell, (s.recalculate .default clock).1.cells[a]? = some cell ∧ cell.stored = some (.boolean true) := by
  obtain ⟨cells, hlist⟩ := List.head?_eq_some_iff.1 hfirst
  let ctx : Context := s.context Options.default clock
  have hroom : 0 < ctx.options.maxDepth := show 0 < Options.default.maxDepth by decide
  have hdistinct := nodup_toList_keys s.formulas
  rw [hlist, List.map_cons] at hdistinct
  obtain ⟨hnew, hdistinct⟩ := List.nodup_cons.1 hdistinct
  rw [hlist] at hchain
  have htruth : Constant ctx "=TRUE".toList (.boolean true) := fun _ m => ⟨m, rfl, rfl⟩
  obtain ⟨ev, hvisit, hpath, hcache⟩ := htruth.evalCell hroom first
  rw [show String.ofList "=TRUE".toList = "=TRUE" from rfl] at hvisit
  have hrest : evaluateCells ctx (Evaluator.fresh.evalCell ctx first.label "=TRUE").2 cells =
      cells.map fun q => (q.1, .boolean true) := by
    rw [hvisit]
    refine evaluateCells_follows hroom (v := .boolean true) hpath ?_ hchain hdistinct fun q hq => ?_
    · rw [hcache]
      exact Std.HashMap.getElem?_insert_self
    · have hne : first.label ≠ q.1.label := by
        intro h
        rw [Address.label_injective h] at hnew
        exact hnew (List.mem_map.2 ⟨q, hq, rfl⟩)
      simp [hcache, hne]
  have hresults : s.results .default clock = s.formulas.toList.map fun q => (q.1, .boolean true) := by
    have hall : s.formulas.toList.filter (fun q => !isSkipped .default q.2) = s.formulas.toList :=
      List.filter_eq_self.2 fun _ _ => rfl
    calc s.results .default clock
        = evaluateCells ctx Evaluator.fresh (s.formulas.toList.filter fun q => !isSkipped .default q.2) := rfl
      _ = evaluateCells ctx Evaluator.fresh ((first, "=TRUE") :: cells) := by rw [hall, hlist]
      _ = (first, .boolean true) :: cells.map fun q => (q.1, .boolean true) := by
        rw [evaluateCells_cons, hrest, hvisit]
        rfl
      _ = s.formulas.toList.map fun q => (q.1, .boolean true) := by rw [hlist, List.map_cons]
  have hmem : (a, CellValue.boolean true) ∈ s.results .default clock := by
    rw [hresults]
    exact List.mem_map.2 ⟨(a, text), Std.ExtTreeMap.mem_toList_iff_getElem?_eq_some.2 htext, rfl⟩
  obtain ⟨cell, -, hstored⟩ := hs.exists_stored hmem
  exact ⟨_, hstored, rfl⟩

/-! ## A ladder in the first column -/

def rungAddress (k : Nat) : Address := ⟨k.toUInt32, 0⟩

def rungText : Nat → String
  | 0 => "=TRUE"
  | k + 1 => String.ofList (referenceTo (rungAddress k))

/-- The sheet with a ladder of the given number of rungs, entered one after
another. -/
def ladder : Nat → Sheet
  | 0 => empty
  | n + 1 => ((Operation.setInput (rungAddress n) (rungText n)).run .epoch (ladder n)).sheet

theorem reachable_ladder (n : Nat) : (ladder n).Reachable := by
  induction n with
  | zero => exact .ofBounds _ _
  | succ n ih => exact ih.run _ _

theorem isFormulaText_rungText (k : Nat) : IsFormulaText (rungText k) := by
  cases k with
  | zero => exact ⟨by decide, by decide⟩
  | succ k =>
    have ha := Formula.isAddressForm_name (rungAddress k)
    have hne : (rungAddress k).name ≠ [] := by
      intro h
      rw [h] at ha
      cases ha
    unfold IsFormulaText
    rw [rungText, String.toList_ofList]
    refine ⟨Text.trim_eq_self (fun c hc => ?_) (fun c hc => ?_), rfl⟩
    · cases hc
      decide
    · rw [referenceTo, List.getLast?_cons_of_ne_nil hne] at hc
      exact Formula.isBlank_of_isAddressForm ha c (List.mem_of_mem_getLast? hc)

theorem calledNames_of_notMem {cs : List Char} (h : ∀ c ∈ cs, c ≠ '(') (word : List Char) :
    Formula.calledNames word cs = [] := by
  induction cs generalizing word with
  | nil => rfl
  | cons c cs ih =>
    have ih := ih fun d hd => h d (List.mem_cons_of_mem c hd)
    rw [Formula.calledNames, if_neg (h c List.mem_cons_self), ih, ih, ite_self]

theorem isVolatile_rungText (k : Nat) : isVolatile (rungText k) = false := by
  cases k with
  | zero => decide
  | succ k =>
    have ha := Formula.isAddressForm_name (rungAddress k)
    have hplain : ∀ c ∈ (rungAddress k).name, Formula.IsPlain c := fun c hc =>
      Formula.isPlain_of_isAtomChar (Formula.isAtomChar_of_isAddressForm ha c hc)
    have hwithout : Formula.withoutQuoted none (rungAddress k).name = (rungAddress k).name :=
      Formula.withoutQuoted_append_plain (fun c hc => (hplain c hc).quote) []
    rw [isVolatile, rungText, String.toList_ofList, referenceTo, Formula.exprOf_of_isAddressForm ha,
      hwithout, calledNames_of_notMem fun c hc => (hplain c hc).left]
    rfl

theorem toList_insert_last {β : Type} {g : Grid β} {a : Address} (v : β)
    (h : ∀ p ∈ g.toList, compare p.1 a = .lt) : (g.insert a v).toList = g.toList ++ [(a, v)] := by
  have hordered : (g.toList ++ [(a, v)]).Pairwise fun p q => compare p.1 q.1 = .lt := by
    refine List.pairwise_append.2 ⟨g.ordered_keys_toList, List.pairwise_singleton _ _, ?_⟩
    intro p hp q hq
    rw [List.mem_singleton.1 hq]
    exact h p hp
  have hdistinct : ∀ {l : List (Address × β)}, l.Pairwise (fun p q => compare p.1 q.1 = .lt) → l.Nodup := by
    intro l hl
    refine hl.imp fun {p q} hlt heq => ?_
    have hself : compare q.1 q.1 = .eq := Std.ReflCmp.compare_self
    rw [heq, hself] at hlt
    cases hlt
  refine List.Perm.eq_of_pairwise (fun p q _ _ hpq hqp => ?_) (g.insert a v).ordered_keys_toList hordered
    ((List.perm_ext_iff_of_nodup (hdistinct (g.insert a v).ordered_keys_toList) (hdistinct hordered)).2 ?_)
  · have hswap : compare p.1 q.1 = (compare q.1 p.1).swap := Std.OrientedCmp.eq_swap
    rw [hpq, hqp] at hswap
    cases hswap
  · intro p
    obtain ⟨b, w⟩ := p
    rw [Std.ExtTreeMap.mem_toList_iff_getElem?_eq_some, Std.ExtTreeMap.getElem?_insert, List.mem_append,
      Std.ExtTreeMap.mem_toList_iff_getElem?_eq_some, List.mem_singleton, Prod.mk.injEq]
    by_cases hab : a = b
    · subst hab
      have hself : compare a a = .eq := Std.ReflCmp.compare_self
      have hnew : g[a]? ≠ some w := by
        intro hw
        have hlt := h (a, w) (Std.ExtTreeMap.mem_toList_iff_getElem?_eq_some.2 hw)
        rw [hself] at hlt
        cases hlt
      simp [hnew, eq_comm]
    · have hne : compare a b ≠ .eq := fun heq => hab (Std.LawfulEqOrd.eq_of_compare heq)
      simp [hne, Ne.symm hab]

theorem row_rungAddress {k : Nat} (hk : k < 1000) : (rungAddress k).row.toNat = k :=
  UInt32.toNat_ofNat_of_lt (Nat.lt_trans hk (by decide))

theorem rungAddress_injective {j k : Nat} (hj : j < 1000) (hk : k < 1000)
    (h : rungAddress j = rungAddress k) : j = k := by
  rw [← row_rungAddress hj, h, row_rungAddress hk]

theorem compare_rungAddress {j k : Nat} (hjk : j < k) (hk : k < 1000) :
    compare (rungAddress j) (rungAddress k) = .lt := by
  refine Address.before_iff.2 (.inl ?_)
  rw [UInt32.lt_iff_toNat_lt, row_rungAddress (by omega), row_rungAddress hk]
  exact hjk

theorem setInput_of_isFormulaText {a : Address} {text : String} (hin : s.inBounds a = true)
    (htext : IsFormulaText text) :
    (s.setInput a text).sheet.formulas = s.formulas.insert a text ∧
      (s.setInput a text).sheet.rows = s.rows ∧ (s.setInput a text).sheet.cols = s.cols := by
  unfold Sheet.setInput Sheet.setCell
  rw [if_pos htext.isFormulaInput, if_pos hin]
  refine ⟨?_, rfl, rfl⟩
  simp [Cell.ofContent, htext.formulaText]

theorem inBounds_rungAddress (hrows : s.rows = defaultRows) (hcols : s.cols = defaultCols) {k : Nat}
    (hk : k < 1000) : s.inBounds (rungAddress k) = true := by
  have hrow : (rungAddress k).row < defaultRows := by
    rw [UInt32.lt_iff_toNat_lt, row_rungAddress hk]
    exact hk
  have hcol : (rungAddress k).col < defaultCols := show (0 : UInt32) < defaultCols by decide
  simp [inBounds, hrows, hcols, hrow, hcol]

theorem ladder_eq {n : Nat} (hn : n ≤ 1000) :
    (ladder n).formulas.toList = (List.range n).map (fun k => (rungAddress k, rungText k)) ∧
      (ladder n).rows = defaultRows ∧ (ladder n).cols = defaultCols := by
  induction n with
  | zero => exact ⟨rfl, rfl, rfl⟩
  | succ n ih =>
    obtain ⟨hlist, hrows, hcols⟩ := ih (by omega)
    have hin := inBounds_rungAddress hrows hcols hn
    obtain ⟨hformulas, hrows', hcols'⟩ := setInput_of_isFormulaText hin (isFormulaText_rungText n)
    have hsheet : ladder (n + 1) = ((ladder n).setInput (rungAddress n) (rungText n)).sheet := rfl
    rw [hsheet, hformulas, hrows', hcols', toList_insert_last, hlist, List.range_succ, List.map_append]
    · exact ⟨rfl, hrows, hcols⟩
    · intro p hp
      rw [hlist] at hp
      obtain ⟨k, hk, rfl⟩ := List.mem_map.1 hp
      exact compare_rungAddress (List.mem_range.1 hk) hn

theorem formulas_ladder {n : Nat} (hn : n ≤ 1000) {a : Address} {text : String} :
    (ladder n).formulas[a]? = some text ↔ ∃ k, k < n ∧ a = rungAddress k ∧ text = rungText k := by
  rw [← Std.ExtTreeMap.mem_toList_iff_getElem?_eq_some, (ladder_eq hn).1, List.mem_map]
  constructor
  · intro h
    obtain ⟨k, hk, heq⟩ := h
    cases heq
    exact ⟨k, List.mem_range.1 hk, rfl, rfl⟩
  · intro h
    obtain ⟨k, hk, rfl, rfl⟩ := h
    exact ⟨k, List.mem_range.2 hk, rfl⟩

theorem formulaAt?_ladder {n : Nat} (hn : n ≤ 1000) {k : Nat} (hk : k < n) (options : Options)
    (clock : Clock) :
    ((ladder n).context options clock).formulaAt? (rungAddress k).label = some (rungText k).toList := by
  obtain ⟨-, hrows, hcols⟩ := ladder_eq hn
  exact (reachable_ladder n).indexed.formulaAt?_context (Address.ofName_name (rungAddress k))
    (inBounds_rungAddress hrows hcols (by omega)) ((formulas_ladder hn).2 ⟨k, hk, rfl, rfl⟩) options clock

theorem ladder_context {m : Nat} (hm : m < 1000) (options : Options) (clock : Clock) :
    Ladder ((ladder (m + 1)).context options clock) rungAddress m where
  top := ⟨_, formulaAt?_ladder hm (by omega) options clock⟩
  rung k hk := by
    rw [formulaAt?_ladder hm (by omega) options clock, rungText, String.toList_ofList]
  distinct i j hi hj h := rungAddress_injective (by omega) (by omega) h

/-- A recalculation stores true on every rung, however long the ladder is. -/
theorem recalculate_ladder {n : Nat} (hn : n ≤ 1000) {k : Nat} (hk : k < n) (clock : Clock) :
    ∃ cell, ((ladder n).recalculate .default clock).1.cells[rungAddress k]? = some cell ∧
      cell.stored = some (.boolean true) := by
  obtain ⟨hlist, -, -⟩ := ladder_eq hn
  have hfirst : (ladder n).formulas.toList.head? = some (rungAddress 0, "=TRUE") := by
    obtain ⟨m, rfl⟩ : ∃ m, n = m + 1 := ⟨n - 1, by omega⟩
    rw [hlist, List.range_succ_eq_map]
    rfl
  have hchain : (ladder n).formulas.toList.IsChain Follows := by
    rw [hlist, List.isChain_iff_getElem]
    intro i hi
    simp only [List.getElem_map, List.getElem_range]
    rfl
  exact (reachable_ladder n).indexed.recalculate_follows hfirst hchain clock
    ((formulas_ladder hn).2 ⟨k, hk, rfl, rfl⟩)

/-- Recalculated by itself, a rung with as many rungs above it as may be inside
one another is refused. -/
theorem recalculateCell_ladder {n : Nat} (hn : n ≤ 1000) {k : Nat} (hdeep : 256 ≤ k) (hk : k < n)
    (clock clock' : Clock) :
    (((ladder n).recalculate .default clock).1.recalculateCell clock' (rungAddress k)).2 =
      some (.error (Fault.tooManyNested 256 (rungAddress (k - 256)).label).message) := by
  obtain ⟨m, rfl⟩ : ∃ m, n = m + 1 := ⟨n - 1, by omega⟩
  have hrefused := (ladder_context (m := m) (by omega) Options.default clock').evaluateAt_refused
    (k := k) hdeep (by omega) (formulaAt?_ladder hn hk Options.default clock')
  have hone := (reachable_ladder (m + 1)).indexed.recalculateCell_setResults
    ((ladder (m + 1)).results .default clock) clock' ((formulas_ladder hn).2 ⟨k, hk, rfl, rfl⟩)
  rw [hrefused] at hone
  show (((ladder (m + 1)).setResults _).recalculateCell clock' (rungAddress k)).2 = _
  rw [hone]
  rfl

/-! ## A cell outside the grid -/

/-- A sheet with a formula that refers to a cell outside the grid, where an
insertion of a column left it. -/
def displaced : Sheet :=
  let s := ((Operation.setInput ⟨0, 4294967294⟩ "=TRUE").run .epoch (ofBounds 2 4294967295)).sheet
  let s := ((Operation.setInput ⟨1, 0⟩ "=MWLQKWV1").run .epoch s).sheet
  ((Operation.insertCols 4294967294 1).run .epoch s).sheet

theorem reachable_displaced : displaced.Reachable :=
  (((Reachable.ofBounds 2 4294967295).run _ _).run _ _).run _ _

theorem formulas_displaced :
    displaced.formulas.toList = [(⟨0, 4294967295⟩, "=TRUE"), (⟨1, 0⟩, "=MWLQKWV1")] := by
  decide

theorem referenceTo_displaced : String.ofList (referenceTo ⟨0, 4294967295⟩) = "=MWLQKWV1" := by
  decide +kernel

theorem isVolatile_displaced {a : Address} {text : String} (htext : displaced.formulas[a]? = some text) :
    isVolatile text = false := by
  have hquiet : ∀ text ∈ ["=TRUE", "=MWLQKWV1"], isVolatile text = false := by decide
  have hmem := List.mem_map_of_mem (f := Prod.snd) (Std.ExtTreeMap.mem_toList_iff_getElem?_eq_some.2 htext)
  rw [formulas_displaced] at hmem
  exact hquiet text hmem

theorem getElem?_displaced : displaced.formulas[(⟨1, 0⟩ : Address)]? = some "=MWLQKWV1" := by
  rw [← Std.ExtTreeMap.mem_toList_iff_getElem?_eq_some, formulas_displaced]
  exact List.mem_cons_of_mem _ List.mem_cons_self

theorem recalculate_displaced (clock : Clock) :
    ∃ cell, (displaced.recalculate .default clock).1.cells[(⟨1, 0⟩ : Address)]? = some cell ∧
      cell.stored = some (.boolean true) := by
  have hchain : displaced.formulas.toList.IsChain Follows := by
    rw [formulas_displaced]
    exact .cons_cons referenceTo_displaced.symm (.singleton _)
  have hfirst : displaced.formulas.toList.head? = some (⟨0, 4294967295⟩, "=TRUE") := by
    rw [formulas_displaced]
    rfl
  exact reachable_displaced.indexed.recalculate_follows hfirst hchain clock getElem?_displaced

theorem recalculateCell_displaced (clock clock' : Clock) :
    ((displaced.recalculate .default clock).1.recalculateCell clock' ⟨1, 0⟩).2 = some .empty := by
  have hresolve : displaced.resolve (⟨0, 4294967295⟩ : Address).label = none := by decide +kernel
  have hempty : evaluateAt (displaced.context Options.default clock') (⟨1, 0⟩ : Address).label "=MWLQKWV1" =
      .ok .empty := by
    rw [← referenceTo_displaced]
    exact evaluateAt_referenceTo (show 0 < Options.default.maxDepth by decide) ⟨1, 0⟩ hresolve
  have hone := reachable_displaced.indexed.recalculateCell_setResults (displaced.results .default clock)
    clock' getElem?_displaced
  rw [hempty] at hone
  show ((displaced.setResults _).recalculateCell clock' ⟨1, 0⟩).2 = _
  rw [hone]
  rfl

/-- Recalculating one cell need not agree with recalculating the sheet. On a
ladder of 257 rungs the last one is refused by itself, and a formula that refers
to a cell outside the grid comes to nothing by itself; a recalculation of the
sheet has true for both. -/
theorem recalculateCell_differs :
    ((ladder 257).Reachable ∧
      (∀ (a : Address) text, (ladder 257).formulas[a]? = some text →
        (ladder 257).inBounds a = true ∧ isVolatile text = false) ∧
      ∀ clock clock', ∃ cell, ((ladder 257).recalculate .default clock).1.cells[(⟨256, 0⟩ : Address)]? = some cell ∧
        cell.stored = some (.boolean true) ∧
        (((ladder 257).recalculate .default clock).1.recalculateCell clock' ⟨256, 0⟩).2 =
          some (.error "Circular reference: more than 256 formula cells nested while evaluating A1")) ∧
    (displaced.Reachable ∧
      (∀ (a : Address) text, displaced.formulas[a]? = some text → isVolatile text = false) ∧
      ∀ clock clock', ∃ cell, (displaced.recalculate .default clock).1.cells[(⟨1, 0⟩ : Address)]? = some cell ∧
        cell.stored = some (.boolean true) ∧
        ((displaced.recalculate .default clock).1.recalculateCell clock' ⟨1, 0⟩).2 = some .empty) := by
  have hlength : 257 ≤ 1000 := by decide
  refine ⟨⟨reachable_ladder 257, fun a text htext => ?_, fun clock clock' => ?_⟩, reachable_displaced,
    fun a text htext => isVolatile_displaced htext, fun clock clock' => ?_⟩
  · obtain ⟨-, hrows, hcols⟩ := ladder_eq hlength
    obtain ⟨k, hk, rfl, rfl⟩ := (formulas_ladder hlength).1 htext
    exact ⟨inBounds_rungAddress hrows hcols (by omega), isVolatile_rungText k⟩
  · obtain ⟨cell, hcell, hstored⟩ := recalculate_ladder hlength (k := 256) (by decide) clock
    have hone := recalculateCell_ladder hlength (k := 256) (by decide) (by decide) clock clock'
    have hmessage : (Fault.tooManyNested 256 (rungAddress (256 - 256)).label).message =
        "Circular reference: more than 256 formula cells nested while evaluating A1" := by decide +kernel
    rw [hmessage] at hone
    exact ⟨cell, hcell, hstored, hone⟩
  · obtain ⟨cell, hcell, hstored⟩ := recalculate_displaced clock
    exact ⟨cell, hcell, hstored, recalculateCell_displaced clock clock'⟩

end Sheet

end Spreadsheet

import Spreadsheet.Formula.Evaluator
import Spreadsheet.Proofs.Address.Name
import Spreadsheet.Proofs.Address.Range

/-
  From the parts of an expression to the whole.

  The functions of a `Scope` ask for the values of parts and of cells and put
  them together by sequencing, so whatever relates the answers in two scopes
  relates the values of the whole. `Scope.Alike.shape` says this once for every
  shape and every relation that sequencing keeps; an invariant of a single
  computation is such a relation too, one that looks at its first side only.
-/

namespace Spreadsheet.Formula

/-- A relation between computations that holds of equal answers and that
sequencing keeps. -/
structure Sequential (R : (α : Type) → Run α → Run α → Prop) : Prop where
  pure : ∀ {α : Type} (a : α), R α (Pure.pure a) (Pure.pure a)
  throw : ∀ {α : Type} (fault : Fault), R α (MonadExcept.throw fault) (MonadExcept.throw fault)
  bind : ∀ {α β : Type} {x y : Run α} {f g : α → Run β},
    R α x y → (∀ a, R β (f a) (g a)) → R β (x >>= f) (y >>= g)

namespace Sequential

variable {R : (α : Type) → Run α → Run α → Prop} (hR : Sequential R)

include hR

theorem mapM {α β : Type} {f g : α → Run β} :
    ∀ xs : List α, (∀ a ∈ xs, R β (f a) (g a)) → R (List β) (xs.mapM f) (xs.mapM g)
  | [], _ => hR.pure []
  | a :: xs, h => by
    simp only [List.mapM_cons]
    refine hR.bind (h a List.mem_cons_self) (fun b => ?_)
    refine hR.bind (mapM xs (fun a' ha' => h a' (List.mem_cons_of_mem a ha'))) (fun bs => ?_)
    exact hR.pure (b :: bs)

end Sequential

/-- A function that takes any number of arguments and combines the values of
all of them. -/
inductive Aggregator where
  | sum | average | count | max | min | concatenate
  deriving DecidableEq

namespace Aggregator

def builtin : Aggregator → Builtin
  | sum => .sum
  | average => .average
  | count => .count
  | max => .max
  | min => .min
  | concatenate => .concatenate

/-- The value of an aggregator from the values of its arguments. -/
def ofValues (f : Aggregator) (vs : List Value) : Value :=
  match f with
  | sum => .number (sumOf vs)
  | average => .number (averageOf vs)
  | count => .number (countOf vs)
  | max => .number (maxOf vs)
  | min => .number (minOf vs)
  | concatenate => .text (concatenationOf vs)

end Aggregator

theorem Scope.apply_aggregator (s : Scope) (f : Aggregator) (args : List (List Char)) :
    s.apply f.builtin args = (do return f.ofValues (← s.expandAll args)) := by
  cases f <;> rfl

/-! ## What a shape says of the text -/

/-- Which test of the text a shape comes from. -/
def Shape.Reads (e : List Char) : Shape → Prop
  | .blank => e = []
  | .literal text => Quoted.text? e = some text
  | .call name args => call? e = some (name, args)
  | .group inside => ∃ text, group? e = some text ∧ inside = Text.trim text
  | .comparison left op right => Comparison.split? e = some (left, op, right)
  | .chain c => Chain.ofExpr? e = .ok (some c)
  | .malformed fault => Chain.ofExpr? e = .error fault
  | .range text => text = e ∧ isRangeForm e = true
  | .reference address => address = e ∧ isAddressForm e = true
  | .negated operand => e = '-' :: operand
  | .affirmed operand => e = '+' :: operand
  | .truth _ | .number _ => True

theorem Shape.reads_ofAtom (e : List Char) : (ofAtom e).Reads e := by
  unfold ofAtom
  split
  · rename_i hrange
    exact ⟨rfl, hrange⟩
  · split
    · rename_i haddress
      exact ⟨rfl, haddress⟩
    · split
      · trivial
      · split
        · trivial
        · split
          · rfl
          · rfl
          · trivial

theorem Shape.reads_ofExpr (e : List Char) : (ofExpr e).Reads e := by
  unfold ofExpr
  split
  · rename_i hempty
    exact List.isEmpty_iff.1 hempty
  · split
    · assumption
    · split
      · assumption
      · split
        · rename_i text hgroup
          exact ⟨text, hgroup, rfl⟩
        · split
          · assumption
          · split
            · assumption
            · assumption
            · exact reads_ofAtom e

theorem isAddressForm_of_reference {e a : List Char} (h : Shape.ofExpr e = .reference a) :
    isAddressForm a = true := by
  have hreads := Shape.reads_ofExpr e
  rw [h] at hreads
  obtain ⟨rfl, haddress⟩ := hreads
  exact haddress

/-! ## Scopes that answer alike -/

/-- Whether a property holds of every part that a shape may ask for. -/
def Shape.Parts (p : List Char → Prop) : Shape → Prop
  | .group inside => p inside
  | .call _ args => ∀ arg ∈ arguments args, p arg
  | .comparison left _ right => p left ∧ p right
  | .chain c => ∀ operand ∈ c.operands, p operand
  | .negated operand | .affirmed operand => p operand
  | _ => True

theorem Shape.Parts.of_forall {p : List Char → Prop} (h : ∀ e, p e) (sh : Shape) : sh.Parts p := by
  cases sh <;> simp [Shape.Parts, h]

/-- Two scopes that answer alike: for parts with the property `p`, for
arguments with it, and for cells under a name with the property `q`. -/
structure Scope.Alike (R : (α : Type) → Run α → Run α → Prop) (p q : List Char → Prop)
    (s t : Scope) : Prop where
  sequential : Sequential R
  expr : ∀ e, p e → R Value (s.expr e) (t.expr e)
  expand : ∀ e, p e → R (List Value) (s.expand e) (t.expand e)
  cell : ∀ a, q a → R Value (s.cell (String.ofList a)) (t.cell (String.ofList a))
  precedence : s.ctx.options.precedence = t.ctx.options.precedence

namespace Scope.Alike

variable {R : (α : Type) → Run α → Run α → Prop} {p q : List Char → Prop} {s t : Scope}
  (h : Alike R p q s t)

include h

theorem number (e : List Char) (he : p e) : R Float (s.number e) (t.number e) :=
  h.sequential.bind (h.expr e he) (fun _ => h.sequential.pure _)

theorem expandAll (args : List (List Char)) (hargs : ∀ arg ∈ args, p arg) :
    R (List Value) (s.expandAll args) (t.expandAll args) :=
  h.sequential.bind (h.sequential.mapM args (fun arg harg => h.expand arg (hargs arg harg)))
    (fun _ => h.sequential.pure _)

theorem aggregate (f : List Value → Float) (args : List (List Char)) (hargs : ∀ arg ∈ args, p arg) :
    R Value (s.aggregate f args) (t.aggregate f args) :=
  h.sequential.bind (h.expandAll args hargs) (fun _ => h.sequential.pure _)

theorem date (year month day : List Char) (hy : p year) (hm : p month) (hd : p day) :
    R Value (s.date year month day) (t.date year month day) := by
  have seq := h.sequential
  refine seq.bind (h.expr year hy) (fun y => ?_)
  cases datePart? y with
  | none => exact seq.pure _
  | some y =>
    refine seq.bind (h.expr month hm) (fun m => ?_)
    cases datePart? m with
    | none => exact seq.pure _
    | some m =>
      refine seq.bind (h.expr day hd) (fun d => ?_)
      cases datePart? d with
      | none => exact seq.pure _
      | some d => exact seq.pure _

/-- A call of a function. Only `NOW` asks the clock. -/
theorem apply (b : Builtin) (args : List (List Char)) (hargs : ∀ arg ∈ args, p arg)
    (hnow : b = .now → R Moment s.ctx.now t.ctx.now) : R Value (s.apply b args) (t.apply b args) := by
  have seq := h.sequential
  unfold Scope.apply
  split
  -- in the order of the definition: first those that combine numbers
  · exact h.aggregate _ _ hargs
  · exact h.aggregate _ _ hargs
  · exact h.aggregate _ _ hargs
  · exact h.aggregate _ _ hargs
  · exact h.aggregate _ _ hargs
  · exact seq.bind (h.number _ (hargs _ (by simp))) (fun _ => seq.pure _)
  · refine seq.bind (h.number _ (hargs _ (by simp))) (fun _ => ?_)
    exact seq.bind (h.number _ (hargs _ (by simp))) (fun _ => seq.pure _)
  · exact seq.bind (h.number _ (hargs _ (by simp))) (fun _ => seq.pure _)
  · exact seq.bind (h.number _ (hargs _ (by simp))) (fun _ => seq.pure _)
  · refine seq.bind (h.number _ (hargs _ (by simp))) (fun _ => ?_)
    exact seq.bind (h.number _ (hargs _ (by simp))) (fun _ => seq.pure _)
  -- the test is alike, so both choose the same branch
  · refine seq.bind (h.expr _ (hargs _ (by simp))) (fun v => ?_)
    split
    · exact h.expr _ (hargs _ (by simp))
    · exact seq.pure _
  · refine seq.bind (h.expr _ (hargs _ (by simp))) (fun v => ?_)
    split
    · exact h.expr _ (hargs _ (by simp))
    · exact h.expr _ (hargs _ (by simp))
  · exact seq.bind (h.expandAll _ hargs) (fun _ => seq.pure _)
  · exact seq.bind (hnow rfl) (fun _ => seq.pure _)
  · exact h.date _ _ _ (hargs _ (by simp)) (hargs _ (by simp)) (hargs _ (by simp))
  · exact seq.throw _

theorem call (name args : List Char) (hargs : ∀ arg ∈ arguments args, p arg)
    (hnow : Builtin.ofName? name = some .now → R Moment s.ctx.now t.ctx.now) :
    R Value (s.call name args) (t.call name args) := by
  unfold Scope.call
  split
  · exact h.sequential.throw _
  · rename_i b hb
    dsimp only
    split
    · exact h.sequential.throw _
    · exact h.apply b _ hargs (fun hnow' => hnow (hnow' ▸ hb))

theorem shape (sh : Shape) (hparts : sh.Parts p)
    (hnow : ∀ name args, sh = .call name args → Builtin.ofName? name = some .now →
      R Moment s.ctx.now t.ctx.now)
    (hreference : ∀ a, sh = .reference a → q a) : R Value (s.shape sh) (t.shape sh) := by
  have seq := h.sequential
  cases sh with
  | blank => exact seq.pure _
  | literal text => exact seq.pure _
  | call name args => exact h.call name args hparts (hnow name args rfl)
  | group inside => exact h.expr inside hparts
  | comparison left op right =>
    refine seq.bind (h.expr left hparts.1) (fun x => ?_)
    exact seq.bind (h.expr right hparts.2) (fun y => seq.pure _)
  | chain c =>
    obtain ⟨first, links⟩ := c
    simp only [Shape.Parts, Chain.operands, List.mem_cons, List.mem_map] at hparts
    refine seq.bind (h.number first (hparts first (Or.inl rfl))) (fun x => ?_)
    refine seq.bind (seq.mapM links (fun link hlink => ?_)) (fun ys => ?_)
    · exact seq.bind (h.number link.2 (hparts link.2 (Or.inr ⟨link, hlink, rfl⟩)))
        (fun _ => seq.pure _)
    · rw [h.precedence]
      cases t.ctx.options.precedence.fold x ys with
      | ok z => exact seq.pure _
      | error fault => exact seq.throw _
  | malformed fault => exact seq.throw _
  | range text => exact seq.throw _
  | reference address => exact h.cell address (hreference address rfl)
  | truth b => exact seq.pure _
  | negated operand => exact seq.bind (h.number operand hparts) (fun _ => seq.pure _)
  | affirmed operand => exact seq.bind (h.number operand hparts) (fun _ => seq.pure _)
  | number x => exact seq.pure _

end Scope.Alike

/-- The values of a range are those of its cells in the grid, row by row, unless
the count of them passes the limit. -/
theorem Scope.rangeCells_eq (s : Scope) (text : List Char) (range : Range) :
    s.rangeCells text range =
      if range.countIn s.ctx.bounds > s.ctx.options.maxRangeCells then
        throw (.rangeTooLarge (String.ofList text) (range.countIn s.ctx.bounds)
          s.ctx.options.maxRangeCells)
      else (range.cellsIn s.ctx.bounds).mapM fun a => s.cell a.label := by
  rw [rangeCells]
  split
  · rename_i hnone
    have hpart : range.clampIn s.ctx.bounds = none := hnone
    have hcount : range.countIn s.ctx.bounds = 0 := by rw [Range.countIn, hpart]
    rw [hcount, Range.cellsIn_of_clampIn hpart, if_neg (Nat.not_lt_zero _)]
    rfl
  · rename_i part hsome
    have hpart : range.clampIn s.ctx.bounds = some part := hsome
    have hcount : range.countIn s.ctx.bounds = part.cellCount.toNat := by rw [Range.countIn, hpart]
    rw [hcount, ← Range.cells_of_clampIn hpart]

theorem Scope.rangeCells_alike {R : (α : Type) → Run α → Run α → Prop} (hR : Sequential R)
    {s t : Scope} (text : List Char) {range : Range} (hbounds : s.ctx.bounds = t.ctx.bounds)
    (hlimit : s.ctx.options.maxRangeCells = t.ctx.options.maxRangeCells)
    (hcell : ∀ a, range.contains a = true → R Value (s.cell a.label) (t.cell a.label)) :
    R (List Value) (s.rangeCells text range) (t.rangeCells text range) := by
  rw [rangeCells_eq, rangeCells_eq, hbounds, hlimit]
  split
  · exact hR.throw _
  · exact hR.mapM _ fun a ha => hcell a (Range.mem_cellsIn.1 ha).1

theorem Scope.expand_alike {R : (α : Type) → Run α → Run α → Prop} (hR : Sequential R)
    {s t : Scope} {argument : List Char}
    (hexpr : R Value (s.expr (Text.trim argument)) (t.expr (Text.trim argument)))
    (hrange : ∀ range, isRangeForm (Text.trim argument) = true →
      Range.ofText (Text.trim argument) = .ok range →
      R (List Value) (s.rangeCells (Text.trim argument) range) (t.rangeCells (Text.trim argument) range)) :
    R (List Value) (s.expand argument) (t.expand argument) := by
  unfold Scope.expand
  dsimp only
  split
  · rename_i hform
    split
    · rename_i range hread
      exact hrange range hform hread
    · exact hR.throw _
  · exact hR.bind hexpr (fun _ => hR.pure _)

/-- Two ways to evaluate expressions that answer alike for ranges and for cells
under a name with the property `q` answer alike for every expression with the
property `p`, if its parts have it too, what it refers to has `q`, and no call
in it asks two clocks that are not alike. -/
theorem levels_alike {R : (α : Type) → Run α → Run α → Prop} (hR : Sequential R)
    {ctx ctx' : Context} {f g : String → List Char → Run Value} {p q : List Char → Prop}
    (hprecedence : ctx.options.precedence = ctx'.options.precedence)
    (hparts : ∀ e, p e → (Shape.ofExpr (Text.trim e)).Parts p)
    (htrim : ∀ e, p e → p (Text.trim e))
    (hnow : ∀ e name args, p e → Shape.ofExpr (Text.trim e) = .call name args →
      Builtin.ofName? name = some .now → R Moment ctx.now ctx'.now)
    (hreference : ∀ e a, p e → Shape.ofExpr (Text.trim e) = .reference a → q a)
    (hcell : ∀ x y a, q a → R Value ((⟨ctx, x, f⟩ : Scope).cell (String.ofList a))
      ((⟨ctx', y, g⟩ : Scope).cell (String.ofList a)))
    (hrange : ∀ x y e range, p e → isRangeForm (Text.trim e) = true →
      Range.ofText (Text.trim e) = .ok range →
      R (List Value) ((⟨ctx, x, f⟩ : Scope).rangeCells (Text.trim e) range)
        ((⟨ctx', y, g⟩ : Scope).rangeCells (Text.trim e) range)) :
    ∀ n e, p e → R Value (levels ctx f n e) (levels ctx' g n e)
  | 0, _, _ => hR.throw _
  | n + 1, e, he => by
    have ih := levels_alike hR hprecedence hparts htrim hnow hreference hcell hrange n
    have alike : Scope.Alike R p q ⟨ctx, levels ctx f n, f⟩ ⟨ctx', levels ctx' g n, g⟩ :=
      { sequential := hR
        expr := ih
        expand := fun arg harg => Scope.expand_alike hR (ih _ (htrim arg harg))
          (fun range => hrange _ _ arg range harg)
        cell := hcell _ _
        precedence := hprecedence }
    exact alike.shape _ (hparts e he) (fun name args hcall => hnow e name args he hcall)
      (fun a ha => hreference e a he ha)

/-- Two ways to evaluate the formulas of other cells that answer alike for
cells answer alike for every expression. -/
theorem levels_alike_of_cell {R : (α : Type) → Run α → Run α → Prop} (hR : Sequential R)
    {ctx : Context} (hnow : R Moment ctx.now ctx.now) {f g : String → List Char → Run Value}
    (hcell : ∀ e e' a, isAddressForm a = true →
      R Value ((⟨ctx, e, f⟩ : Scope).cell (String.ofList a))
        ((⟨ctx, e', g⟩ : Scope).cell (String.ofList a))) (n : Nat) (e : List Char) :
    R Value (levels ctx f n e) (levels ctx g n e) := by
  refine levels_alike hR rfl (p := fun _ => True) (fun _ _ => .of_forall (fun _ => trivial) _)
    (fun _ _ => trivial) (fun _ _ _ _ _ _ => hnow) (fun _ _ _ => isAddressForm_of_reference) hcell
    (fun x y e range _ _ _ => ?_) n e trivial
  exact Scope.rangeCells_alike hR _ rfl rfl (fun a _ => hcell x y a.name (isAddressForm_name a))

end Spreadsheet.Formula

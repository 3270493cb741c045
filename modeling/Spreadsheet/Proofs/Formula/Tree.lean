import Spreadsheet.Proofs.Formula.Cell
import Spreadsheet.Proofs.Formula.Parts
import Spreadsheet.Proofs.Formula.Shapes

/-
  Expressions as trees.

  The evaluator has no trees: it splits texts. `Tree.text` writes a tree as an
  expression, with every operand in parentheses of its own, and `Tree.eval`
  computes a tree by recursion on it. Evaluating the text is evaluating the tree
  (`evaluate_text`), provided that the text does not nest too deep and that no
  cell holds a formula.
-/

namespace Spreadsheet.Formula

open Scan (start)

mutual

/-- An expression as a tree. -/
inductive Tree where
  | numeral (text : List Char) (h : isNumeral text = true)
  | literal (text : List Char)
  | cell (name : List Char) (h : isAddressForm name = true)
  | binary (op : Operator) (left right : Tree)
  | comparison (op : Comparison) (left right : Tree)
  | ifThen (test yes : Tree)
  | ifThenElse (test yes no : Tree)
  | call (f : Aggregator) (args : Trees)

/-- The arguments of a call, at least one. -/
inductive Trees where
  | one (e : Tree)
  | cons (e : Tree) (es : Trees)

end

def Builtin.word (b : Builtin) : List Char := b.signature.name.toList

mutual

def Tree.text : Tree → List Char
  | .numeral text _ => text
  | .literal text => Quoted.literal text
  | .cell name _ => name
  | .binary op left right => grouped left.text ++ op.symbol :: grouped right.text
  | .comparison op left right => grouped left.text ++ (op.symbol ++ grouped right.text)
  | .ifThen test yes => Builtin.choose.word ++ grouped (test.text ++ ',' :: yes.text)
  | .ifThenElse test yes no =>
    Builtin.choose.word ++ grouped (test.text ++ ',' :: (yes.text ++ ',' :: no.text))
  | .call f args => f.builtin.word ++ grouped args.text

def Trees.text : Trees → List Char
  | .one e => e.text
  | .cons e es => e.text ++ ',' :: es.text

end

def Trees.texts : Trees → List (List Char)
  | .one e => [e.text]
  | .cons e es => e.text :: es.texts

mutual

/-- How many levels of parentheses, calls and operators enclose the innermost
part of the text. -/
def Tree.nesting : Tree → Nat
  | .numeral .. | .literal _ | .cell .. => 0
  | .binary _ left right | .comparison _ left right => max left.nesting right.nesting + 2
  | .ifThen test yes => max test.nesting yes.nesting + 1
  | .ifThenElse test yes no => max test.nesting (max yes.nesting no.nesting) + 1
  | .call _ args => args.nesting + 1

def Trees.nesting : Trees → Nat
  | .one e => e.nesting
  | .cons e es => max e.nesting es.nesting

end

mutual

/-- The value of the tree, computed from left to right. Only the branch of a
condition that is chosen is computed. -/
def Tree.eval (ctx : Context) : Tree → Except Fault Value
  | .numeral text _ => .ok (.number (numberOf text))
  | .literal text => .ok (.text (String.ofList text))
  | .cell name _ => .ok (ctx.literalAt (String.ofList name))
  | .binary op left right => do
    let x ← left.eval ctx
    let y ← right.eval ctx
    return .number (← op.apply x.toNumber y.toNumber)
  | .comparison op left right => do
    let x ← left.eval ctx
    let y ← right.eval ctx
    return .boolean (op.ofValues x y)
  | .ifThen test yes => do
    if (← test.eval ctx).isTrue then yes.eval ctx else return .text ""
  | .ifThenElse test yes no => do
    if (← test.eval ctx).isTrue then yes.eval ctx else no.eval ctx
  | .call f args => do return f.ofValues (← args.eval ctx)

def Trees.eval (ctx : Context) : Trees → Except Fault (List Value)
  | .one e => do return [← e.eval ctx]
  | .cons e es => do
    let v ← e.eval ctx
    let vs ← es.eval ctx
    return v :: vs

end

/-! ## The text of a tree -/

theorem isPlain_comma : IsPlain ',' := ⟨by decide, by decide, by decide, by decide⟩

theorem Builtin.isCapital_of_mem_word {b : Builtin} : ∀ c ∈ b.word, Text.isCapital c = true := by
  have hall : b.word.all Text.isCapital = true := by cases b <;> decide
  exact List.all_eq_true.1 hall

theorem Builtin.balanced_word (b : Builtin) : Balanced b.word :=
  .of_plain fun _ hc => isPlain_of_isCapital (isCapital_of_mem_word _ hc)

theorem Builtin.trim_word (b : Builtin) (t : List Char) : Text.trim (b.word ++ grouped t) = b.word ++ grouped t :=
  trim_append_grouped
    (fun c hc => Text.isBlank_of_isCapital (isCapital_of_mem_word c (List.mem_of_mem_head? hc))) t

mutual

theorem Tree.balanced : ∀ e : Tree, Balanced e.text
  | .numeral _ h => .of_plain fun c hc => isPlain_of_isAtomChar (isAtomChar_of_isNumeral h c hc)
  | .literal text => .literal text
  | .cell _ h => .of_plain fun c hc => isPlain_of_isAtomChar (isAtomChar_of_isAddressForm h c hc)
  | .binary op left right =>
    left.balanced.grouped.append ((Balanced.plain (isPlain_symbol op)).append right.balanced.grouped)
  | .comparison _ left right =>
    left.balanced.grouped.append
      ((Balanced.of_plain fun _ hc => isPlain_of_mem_symbol hc).append right.balanced.grouped)
  | .ifThen test yes =>
    (Builtin.balanced_word _).append
      (test.balanced.append ((Balanced.plain isPlain_comma).append yes.balanced)).grouped
  | .ifThenElse test yes no =>
    (Builtin.balanced_word _).append
      (test.balanced.append ((Balanced.plain isPlain_comma).append
        (yes.balanced.append ((Balanced.plain isPlain_comma).append no.balanced)))).grouped
  | .call _ args => (Builtin.balanced_word _).append args.balanced.grouped

theorem Trees.balanced : ∀ es : Trees, Balanced es.text
  | .one e => e.balanced
  | .cons e es => e.balanced.append ((Balanced.plain isPlain_comma).append es.balanced)

end

theorem comma_notMem_of_isAtomChar {c : Char} (h : isAtomChar c = true) : c ≠ ',' := by
  intro hc
  subst hc
  cases h

theorem Tree.exposesOnly (e : Tree) : ExposesOnly (· ≠ ',') e.text := by
  have hcall : ∀ (b : Builtin) {t : List Char}, Balanced t →
      ExposesOnly (· ≠ ',') (b.word ++ grouped t) := by
    intro b t ht
    refine .append b.balanced_word (.of_forall fun c hc => ?_) (.grouped ht)
    exact comma_notMem_of_isAtomChar (isAtomChar_iff.2 (Or.inl (Builtin.isCapital_of_mem_word c hc)))
  cases e with
  | numeral text h =>
    exact .of_forall fun c hc => comma_notMem_of_isAtomChar (isAtomChar_of_isNumeral h c hc)
  | literal text => exact .literal text
  | cell name h =>
    exact .of_forall fun c hc => comma_notMem_of_isAtomChar (isAtomChar_of_isAddressForm h c hc)
  | binary op left right =>
    have hop : ExposesOnly (· ≠ ',') [op.symbol] := .of_forall fun c hc => by
      rw [List.mem_singleton.1 hc]
      cases op <;> decide
    exact .append left.balanced.grouped (.grouped left.balanced)
      (.append (.plain (isPlain_symbol op)) hop (.grouped right.balanced))
  | comparison op left right =>
    have hop : ExposesOnly (· ≠ ',') op.symbol := .of_forall fun c hc => by
      intro hsame
      subst hsame
      cases op <;> simp [Comparison.symbol] at hc
    exact .append left.balanced.grouped (.grouped left.balanced)
      (.append (.of_plain fun _ hc => isPlain_of_mem_symbol hc) hop (.grouped right.balanced))
  | ifThen test yes =>
    exact hcall .choose (Trees.balanced (.cons test (.one yes)))
  | ifThenElse test yes no =>
    exact hcall .choose (Trees.balanced (.cons test (.cons yes (.one no))))
  | call f args => exact hcall f.builtin args.balanced

theorem Tree.trim_text (e : Tree) : Text.trim e.text = e.text := by
  have hparen : ∀ (t rest u : List Char), Text.trim (grouped t ++ (rest ++ grouped u)) =
      grouped t ++ (rest ++ grouped u) := by
    intro t rest u
    rw [← List.append_assoc]
    exact trim_append_grouped (fun c hc => by cases hc; rfl) u
  cases e with
  | numeral text h => exact trim_of_isAtomChar (isAtomChar_of_isNumeral h)
  | literal text =>
    have hquote : Text.isBlank quoteMark = false := by decide
    refine Text.trim_eq_self (fun c hc => ?_) (fun c hc => ?_)
    · cases hc
      exact hquote
    · have hlast : (Quoted.literal text).getLast? = some quoteMark := by
        rw [Quoted.literal, ← List.cons_append, List.getLast?_concat]
      rw [Tree.text, hlast] at hc
      cases hc
      exact hquote
  | cell name h => exact trim_of_isAtomChar (isAtomChar_of_isAddressForm h)
  | binary op left right => exact hparen left.text [op.symbol] right.text
  | comparison op left right => exact hparen left.text op.symbol right.text
  | ifThen test yes => exact Builtin.trim_word .choose _
  | ifThenElse test yes no => exact Builtin.trim_word .choose _
  | call f args => exact f.builtin.trim_word _

theorem Tree.isRangeForm_text (e : Tree) : isRangeForm e.text = false := by
  have hword : ∀ (b : Builtin) (t : List Char), isRangeForm (b.word ++ grouped t) = false := by
    intro b t
    have hdrop : (b.word ++ grouped t).dropWhile Text.isCapital = grouped t := by
      rw [List.dropWhile_append_of_pos Builtin.isCapital_of_mem_word]
      rfl
    have hnone : afterAddress? (b.word ++ grouped t) = none := by
      rw [afterAddress?, hdrop]
      simp [grouped, Text.isDigit]
    rw [isRangeForm, hnone]
    rfl
  cases e with
  | numeral text h =>
    obtain ⟨⟨d, ds, rfl, hd⟩, -⟩ := exists_of_isNumeral h
    exact isRangeForm_of_head (Text.isCapital_of_isDigit hd)
  | literal text => exact isRangeForm_of_head rfl
  | cell name h => exact isRangeForm_of_isAddressForm h
  | binary op left right => exact isRangeForm_of_head rfl
  | comparison op left right => exact isRangeForm_of_head rfl
  | ifThen test yes => exact hword .choose _
  | ifThenElse test yes no => exact hword .choose _
  | call f args => exact hword f.builtin _

theorem Tree.text_ne_nil (e : Tree) : e.text ≠ [] := by
  cases e with
  | numeral text h =>
    obtain ⟨⟨d, ds, rfl, -⟩, -⟩ := exists_of_isNumeral h
    exact List.cons_ne_nil d ds
  | literal text => exact List.cons_ne_nil _ _
  | cell name h =>
    intro hsame
    subst hsame
    cases h
  | binary | comparison => exact List.cons_ne_nil _ _
  | ifThen | ifThenElse => exact List.cons_ne_nil _ _
  | call f args => cases f <;> exact List.cons_ne_nil _ _

theorem Trees.trim_text_ne_nil (es : Trees) : Text.trim es.text ≠ [] := by
  obtain ⟨e, rest, htext⟩ : ∃ (e : Tree) (rest : List Char), es.text = e.text ++ rest := by
    cases es with
    | one e => exact ⟨e, [], (List.append_nil _).symm⟩
    | cons e es => exact ⟨e, ',' :: es.text, rfl⟩
  obtain ⟨c, cs, hc⟩ := List.exists_cons_of_ne_nil e.text_ne_nil
  have hblank : Text.isBlank c = false := by
    apply Text.head?_trim
    rw [e.trim_text, hc]
    rfl
  rw [htext, hc, List.cons_append]
  exact Text.trim_cons_ne_nil hblank _

theorem Trees.cutAt_text : ∀ es : Trees, cutAt ',' (start.mark es.text) = es.texts
  | .one e => by
    rw [Trees.text, cutAt_of_hidden e.exposesOnly, Scan.map_fst_mark]
    rfl
  | .cons e es => by
    rw [Trees.text, cutAt_comma (e.balanced.after 0) e.exposesOnly, es.cutAt_text]
    rfl

theorem Trees.trim_texts : ∀ es : Trees, es.texts.map Text.trim = es.texts
  | .one e => by rw [Trees.texts, List.map_singleton, e.trim_text]
  | .cons e es => by rw [Trees.texts, List.map_cons, e.trim_text, es.trim_texts]

theorem Trees.arguments_text (es : Trees) : arguments es.text = es.texts := by
  rw [arguments, if_neg (by simpa using es.trim_text_ne_nil), es.cutAt_text, es.trim_texts]

/-! ## Evaluating the text -/

/-- Whether a computation comes to a result and leaves the empty cache
empty. -/
def Yields {α : Type} (x : Run α) (r : Except Fault α) : Prop :=
  x ∅ = match r with
    | .ok a => .ok a ∅
    | .error fault => .error fault ∅

namespace Yields

theorem pure {α : Type} (a : α) : Yields (Pure.pure a) (.ok a) := rfl

theorem ofExcept {α : Type} (r : Except Fault α) : Yields (MonadExcept.ofExcept r : Run α) r := by
  cases r <;> rfl

theorem bind {α β : Type} {x : Run α} {r : Except Fault α} {f : α → Run β} {g : α → Except Fault β}
    (hx : Yields x r) (hf : ∀ a, Yields (f a) (g a)) : Yields (x >>= f) (r >>= g) := by
  unfold Yields at hx ⊢
  rw [bind_apply, hx]
  cases r with
  | ok a => exact hf a
  | error fault => rfl

end Yields

variable {ctx : Context} {f : String → List Char → Run Value}

theorem Precedence.fold_one (p : Precedence) (x : Float) (op : Operator) (y : Float) :
    p.fold x [(op, y)] = op.apply x y := by
  cases p with
  | leftToRight =>
    show (op.apply x y >>= fun z => Chain.foldLeft z []) = _
    cases op.apply x y <;> rfl
  | standard =>
    show (op.apply x y >>= fun z => Chain.settleAll [] z) = _
    cases op.apply x y <;> rfl

theorem Scope.shape_binary (s : Scope) (left right : List Char) (op : Operator) :
    s.shape (.chain ⟨left, [(op, right)]⟩) = (do
      let x ← s.expr left
      let y ← s.expr right
      return .number (← MonadExcept.ofExcept (op.apply x.toNumber y.toNumber))) := by
  simp only [Scope.shape, Scope.number, List.mapM_cons, List.mapM_nil, bind_assoc, pure_bind,
    Precedence.fold_one]
  refine bind_congr fun x => bind_congr fun y => ?_
  cases op.apply x.toNumber y.toNumber <;> rfl

theorem Scope.expandAll_text (s : Scope) (e : Tree) (args : List (List Char)) :
    s.expandAll (e.text :: args) = (do
      let v ← s.expr e.text
      let vs ← s.expandAll args
      return v :: vs) := by
  have hexpand : s.expand e.text = (do return [← s.expr e.text]) := by
    unfold Scope.expand
    dsimp only
    rw [e.trim_text, e.isRangeForm_text]
    rfl
  simp [Scope.expandAll, hexpand]

theorem levels_grouped (ctx : Context) (f : String → List Char → Run Value) (n : Nat) (e : Tree) :
    levels ctx f (n + 1) (grouped e.text) = levels ctx f n e.text := by
  rw [levels, trim_grouped, Shape.ofExpr_grouped e.balanced, e.trim_text]
  rfl

theorem Shape.ofExpr_word (b : Builtin) {t : List Char} (ht : Balanced t) :
    Shape.ofExpr (b.word ++ grouped t) = .call b.word t := by
  refine Shape.ofExpr_call (fun c hc => ?_) ?_ ht
  · simp [isNameChar, Builtin.isCapital_of_mem_word c hc]
  · cases b <;> decide

theorem Trees.accepts (es : Trees) (g : Aggregator) :
    g.builtin.signature.arity.accepts es.texts.length = true := by
  have hpos : 1 ≤ es.texts.length := by cases es <;> simp [Trees.texts]
  cases g <;> simp only [Aggregator.builtin, Builtin.signature, Arity.accepts, Option.all_none,
    Bool.and_true] <;> exact decide_eq_true hpos

theorem Builtin.exprOf_word (b : Builtin) {t : List Char} (ht : Balanced t) :
    exprOf (formulaMark :: (b.word ++ grouped t)) = b.word ++ grouped t :=
  (b.balanced_word.append ht.grouped).exprOf
    (List.append_ne_nil_of_right_ne_nil _ (List.cons_ne_nil _ _)) (b.trim_word t)

/-- A call of a built-in function is its value for the arguments in the text, if
there are as many as it takes. -/
theorem levels_word (ctx : Context) (f : String → List Char → Run Value) (n : Nat) (b : Builtin) {t : List Char}
    (ht : Balanced t) (harity : b.signature.arity.accepts (arguments t).length = true) :
    levels ctx f (n + 1) (b.word ++ grouped t) =
      (⟨ctx, levels ctx f n, f⟩ : Scope).apply b (arguments t) := by
  have hname : Builtin.ofName? b.word = some b := by cases b <;> decide
  rw [levels, b.trim_word, Shape.ofExpr_word b ht]
  show (⟨ctx, levels ctx f n, f⟩ : Scope).call b.word t = _
  unfold Scope.call
  rw [hname]
  dsimp only
  rw [Signature.checkArity, if_pos harity]

theorem levels_call (ctx : Context) (f : String → List Char → Run Value) (n : Nat) (e : Tree)
    (b : Builtin) (es : Trees) (htext : e.text = b.word ++ grouped es.text)
    (harity : b.signature.arity.accepts es.texts.length = true) :
    levels ctx f (n + 1) e.text = (⟨ctx, levels ctx f n, f⟩ : Scope).apply b es.texts := by
  rw [← es.arguments_text] at harity ⊢
  rw [htext, levels_word ctx f n b es.balanced harity]

mutual

/-- Evaluating the text of a tree comes to its value, if there are more levels
than it nests. -/
theorem Tree.yields (hctx : ∀ address, ctx.formulaAt? address = none) :
    ∀ (e : Tree) (n : Nat), e.nesting < n → Yields (levels ctx f n e.text) (e.eval ctx)
  | .numeral text h, n + 1, _ => by
    rw [levels, Tree.trim_text, Tree.text, Shape.ofExpr_numeral h]
    exact .pure _
  | .literal text, n + 1, _ => by
    rw [levels, Tree.trim_text, Tree.text, Shape.ofExpr_literal]
    exact .pure _
  | .cell name h, n + 1, _ => by
    rw [levels, Tree.trim_text, Tree.text, Shape.ofExpr_address h]
    exact Scope.cell_of_literal _ (hctx _) (by simp)
  | .binary op left right, n + 2, hn => by
    rw [Tree.nesting] at hn
    have hleft := left.yields hctx n (by omega)
    have hright := right.yields hctx n (by omega)
    rw [← levels_grouped] at hleft hright
    rw [levels, Tree.trim_text, Tree.text, Shape.ofExpr_binary left.balanced right.balanced,
      Scope.shape_binary]
    exact hleft.bind fun x => hright.bind fun y => (Yields.ofExcept _).bind fun z => .pure _
  | .comparison op left right, n + 2, hn => by
    rw [Tree.nesting] at hn
    have hleft := left.yields hctx n (by omega)
    have hright := right.yields hctx n (by omega)
    rw [← levels_grouped] at hleft hright
    rw [levels, Tree.trim_text, Tree.text, Shape.ofExpr_comparison left.balanced]
    exact hleft.bind fun x => hright.bind fun y => .pure _
  | .ifThen test yes, n + 1, hn => by
    rw [Tree.nesting] at hn
    have htest := test.yields hctx n (by omega)
    have hyes := yes.yields hctx n (by omega)
    rw [levels_call ctx f n (.ifThen test yes) .choose (.cons test (.one yes)) rfl rfl]
    refine htest.bind fun v => ?_
    cases v.isTrue with
    | true => exact hyes
    | false => exact .pure _
  | .ifThenElse test yes no, n + 1, hn => by
    rw [Tree.nesting] at hn
    have htest := test.yields hctx n (by omega)
    have hyes := yes.yields hctx n (by omega)
    have hno := no.yields hctx n (by omega)
    rw [levels_call ctx f n (.ifThenElse test yes no) .choose (.cons test (.cons yes (.one no))) rfl rfl]
    refine htest.bind fun v => ?_
    cases v.isTrue with
    | true => exact hyes
    | false => exact hno
  | .call g args, n + 1, hn => by
    rw [Tree.nesting] at hn
    have hargs := args.yields hctx n (by omega)
    rw [levels_call ctx f n (.call g args) g.builtin args rfl (args.accepts g), Scope.apply_aggregator]
    exact hargs.bind fun vs => .pure _

theorem Trees.yields (hctx : ∀ address, ctx.formulaAt? address = none) :
    ∀ (es : Trees) (n : Nat), es.nesting < n →
      Yields ((⟨ctx, levels ctx f n, f⟩ : Scope).expandAll es.texts) (es.eval ctx)
  | .one e, n, hn => by
    rw [Trees.nesting] at hn
    rw [Trees.texts, Scope.expandAll_text]
    exact (e.yields hctx n hn).bind fun v => .pure _
  | .cons e es, n, hn => by
    rw [Trees.nesting] at hn
    rw [Trees.texts, Scope.expandAll_text]
    exact (e.yields hctx n (by omega)).bind fun v =>
      (es.yields hctx n (by omega)).bind fun vs => .pure _

end

theorem Tree.exprOf_text (e : Tree) : exprOf ("=" ++ String.ofList e.text).toList = e.text := by
  have hlist : ("=" ++ String.ofList e.text).toList = formulaMark :: e.text := by simp [formulaMark]
  rw [hlist, e.balanced.exprOf e.text_ne_nil e.trim_text]

/-- The evaluator computes trees. The value of the text of a tree, as a formula,
is the value of the tree, or its fault, if the text nests less than the limit
and no cell holds a formula. -/
theorem evaluate_text (ctx : Context)
    (hcells : ∀ address text, ctx.resolve address = some text →
      (Text.trim text.toList).head? ≠ some formulaMark)
    (e : Tree) (hnesting : e.nesting < levelLimit) :
    evaluate ctx ("=" ++ String.ofList e.text) = e.eval ctx := by
  have hctx : ∀ address, ctx.formulaAt? address = none := by
    intro address
    unfold Context.formulaAt?
    cases hresolve : ctx.resolve address with
    | none => rfl
    | some text =>
      refine Option.bind_eq_none_iff.2 fun c hc => if_neg fun hmark => ?_
      rw [hmark] at hc
      exact hcells address text hresolve hc
  have hyields := e.yields (f := Evaluator.fresh.formulaOf ctx) hctx levelLimit hnesting
  show (Evaluator.fresh.run (levels ctx (Evaluator.fresh.formulaOf ctx) levelLimit
    (exprOf ("=" ++ String.ofList e.text).toList))).1 = _
  rw [e.exprOf_text]
  unfold Evaluator.run
  rw [show Evaluator.fresh.toMemory = ∅ from rfl, hyields]
  cases e.eval ctx <;> rfl

/-- A condition over cells, with a text in it that looks like more of the
formula. -/
def Tree.sample : Tree :=
  .ifThenElse (.comparison .less (.cell ['A', '1'] (by decide)) (.numeral ['2'] (by decide)))
    (.literal "\x22),(=".toList)
    (.call .sum (.cons (.binary .divide (.numeral ['1'] (by decide)) (.cell ['B', '1'] (by decide)))
      (.one (.numeral ['3'] (by decide)))))

/-- A place where every cell holds the number two. -/
def Context.twos : Context := ⟨fun _ => some "2", none, Moment.epoch, Options.default⟩

theorem evaluate_text_sample :
    evaluate Context.twos ("=" ++ String.ofList Tree.sample.text) = Tree.sample.eval Context.twos := by
  refine evaluate_text _ (fun address text htext => ?_) Tree.sample (by decide)
  cases htext
  decide

end Spreadsheet.Formula

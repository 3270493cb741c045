import Spreadsheet.Proofs.Formula.Limits
import Spreadsheet.Proofs.Formula.Precedence
import Spreadsheet.Proofs.Formula.Signs

/-
  Runs of signs in front of an operand.

  A text is cut behind every second sign of a run, because a sign alone is an
  operand already. Such an operand is a zero, so what it stands in front of keeps
  its size, and of the whole run only the end counts: the last sign that was taken
  for an operator, and the sign behind it if one is left over.

    1. `Chain.cut_pairs` : the chain that the text is cut into.
    2. `foldLeft_pairs` : its value, from that of the last operand.
    3. `evaluate_signs` : the value of the formula. With no more than one sign it
       is the one that the signs stand for.
-/

namespace Spreadsheet.Formula

open Scan (start)
open Number (IsZero SameNumber)

/-! ## Operands -/

/-- Whether a text is an operand without a sign: a numeral, an address or a
group. -/
inductive IsOperand (e : List Char) : Prop
  | numeral (h : isNumeral e = true)
  | address (h : isAddressForm e = true)
  | group {inside : List Char} (h : group? e = some inside)

namespace IsOperand

variable {e : List Char} (he : IsOperand e)

include he

theorem forall_or_eq : (e ≠ [] ∧ ∀ c ∈ e, isAtomChar c = true) ∨
    (∃ inside, e = '(' :: (inside ++ [')'])) ∧ ∀ p ∈ start.mark e, p.2 = false := by
  cases he with
  | numeral h =>
    obtain ⟨⟨d, ds, rfl, -⟩, -⟩ := exists_of_isNumeral h
    exact .inl ⟨List.cons_ne_nil d ds, isAtomChar_of_isNumeral h⟩
  | address h =>
    refine .inl ⟨?_, isAtomChar_of_isAddressForm h⟩
    rintro rfl
    cases h
  | group h => exact .inr ⟨⟨_, (group?_eq_some h).1⟩, hidden_of_group? h⟩

theorem ne_nil : e ≠ [] := by
  rcases he.forall_or_eq with ⟨hne, -⟩ | ⟨⟨inside, rfl⟩, -⟩
  · exact hne
  · exact List.cons_ne_nil _ _

theorem head {c : Char} (hc : c ∈ e.head?) : Text.isBlank c = false := by
  rcases he.forall_or_eq with ⟨-, hatom⟩ | ⟨⟨inside, rfl⟩, -⟩
  · exact isBlank_of_isAtomChar (hatom c (List.mem_of_mem_head? hc))
  · cases hc
    rfl

theorem last {c : Char} (hc : c ∈ e.getLast?) : Text.isBlank c = false ∧ c ≠ '%' := by
  rcases he.forall_or_eq with ⟨-, hatom⟩ | ⟨⟨inside, rfl⟩, -⟩
  · have hc := hatom c (List.mem_of_mem_getLast? hc)
    exact ⟨isBlank_of_isAtomChar hc, (ne_of_isAtomChar hc).2.1⟩
  · rw [← List.cons_append, List.getLast?_concat] at hc
    cases hc
    exact ⟨rfl, by decide⟩

theorem exposesOnly {p : Char → Prop} (hp : ∀ c, isAtomChar c = true → p c) : ExposesOnly p e := by
  rcases he.forall_or_eq with ⟨-, hatom⟩ | ⟨-, hhidden⟩
  · exact .of_forall fun c hc => hp c (hatom c hc)
  · intro q hq hexposed
    rw [hhidden q hq] at hexposed
    cases hexposed

theorem trim : Text.trim e = e := Text.trim_eq_self (fun _ hc => he.head hc) (fun _ hc => (he.last hc).1)

theorem trim_sign (s : Sign) : Text.trim (s.char :: e) = s.char :: e := by
  refine Text.trim_eq_self ?_ fun c hc => (he.last ?_).1
  · rintro _ ⟨⟩
    exact s.isBlank_char
  · rwa [List.getLast?_cons_of_ne_nil he.ne_nil] at hc

/-- With a sign it is evaluated like without, on one level more. -/
theorem levels_sign {ctx : Context} (f : String → List Char → Run Value) (n : Nat) (s : Sign) :
    levels ctx f (n + 2) (s.char :: e) =
      (do return .number (s.apply (← levels ctx f (n + 1) e).toNumber)) := by
  have hoperator := he.exposesOnly fun c hc => ofChar?_of_isAtomChar hc
  have hmark := he.exposesOnly fun c hc => isMark_of_isAtomChar hc
  have hplain (hhead : ∀ c ∈ e.head?, Text.isDigit c = false ∧ c ≠ '.' ∧ c ≠ ',') :
      levels ctx f (n + 2) (s.char :: e) = (do return .number (s.apply (← levels ctx f (n + 1) e).toNumber)) := by
    refine Formula.levels_sign f (n + 1) s (he.trim_sign s) hoperator hmark ?_
    rintro rfl
    exact numberOf?_minus_of_head hhead fun c hc => he.last hc
  cases he with
  | numeral h =>
    obtain ⟨⟨d, ds, rfl, hd⟩, -⟩ := exists_of_isNumeral h
    have hatom := isAtomChar_of_isNumeral h
    rw [levels_sign_atom f n s hd hatom, levels_atom f n hd hatom]
    rfl
  | address h =>
    obtain ⟨ls, ds, rfl, hne, -, hcapital, -⟩ := exists_of_isAddressForm h
    obtain ⟨l, ls, rfl⟩ := List.exists_cons_of_ne_nil hne
    have hl := hcapital l List.mem_cons_self
    refine hplain ?_
    rintro _ ⟨⟩
    refine ⟨?_, ?_, ?_⟩
    · refine Bool.eq_false_iff.2 fun hdigit => ?_
      rw [Text.isCapital_of_isDigit hdigit] at hl
      cases hl
    · rintro rfl
      cases hl
    · rintro rfl
      cases hl
  | group h =>
    obtain ⟨rfl, -⟩ := group?_eq_some h
    refine hplain ?_
    rintro _ ⟨⟩
    exact ⟨by decide, by decide, by decide⟩

end IsOperand

/-! ## Pairs of signs -/

theorem Sign.isSum_operator (s : Sign) : s.operator.isSum = true := by cases s <;> rfl

/-- Whether a text may stand at the end of a chain: it is cut nowhere. -/
structure EndsChain (operand : List Char) : Prop where
  cut : Chain.cut [] (start.mark operand) = ⟨operand, []⟩
  ne_nil : operand ≠ []
  mark : ExposesOnly (fun c => Comparison.isMark c = false) operand
  last : ∀ c ∈ operand.getLast?, Text.isBlank c = false

theorem IsOperand.endsChain {e : List Char} (he : IsOperand e) : EndsChain e where
  cut := by
    rw [Chain.cut_of_exposesOnly (he.exposesOnly fun c hc => ofChar?_of_isAtomChar hc)]
    simp [he.trim]
  ne_nil := he.ne_nil
  mark := he.exposesOnly fun c hc => isMark_of_isAtomChar hc
  last _ hc := (he.last hc).1

theorem IsOperand.endsChain_sign {e : List Char} (he : IsOperand e) (s : Sign) : EndsChain (s.char :: e) where
  cut := by
    rw [Chain.cut_sign s (he.exposesOnly fun c hc => ofChar?_of_isAtomChar hc), he.trim_sign s]
  ne_nil := List.cons_ne_nil s.char e
  mark := .sign s s.isMark_char he.endsChain.mark
  last c hc := he.endsChain.last c (by rwa [List.getLast?_cons_of_ne_nil he.ne_nil] at hc)

def flattened (pairs : List (Sign × Sign)) : List Sign := pairs.flatMap fun p => [p.1, p.2]

@[simp] theorem flattened_cons (p : Sign × Sign) (pairs : List (Sign × Sign)) :
    flattened (p :: pairs) = p.1 :: p.2 :: flattened pairs := rfl

/-- The first sign of each pair is an operand and the second one an operator. -/
def Chain.ofPairs (operand : List Char) : List (Sign × Sign) → Chain
  | [] => ⟨operand, []⟩
  | (s, t) :: pairs =>
    let rest := ofPairs operand pairs
    ⟨[s.char], (t.operator, rest.first) :: rest.links⟩

section

variable {operand : List Char} (ho : EndsChain operand)

include ho

/-- Pairs of signs in front of an operand are cut between the two signs, and
behind them. -/
theorem Chain.cut_pairs (pairs : List (Sign × Sign)) :
    cut [] (start.mark (signText (flattened pairs) ++ operand)) = ofPairs operand pairs := by
  induction pairs with
  | nil => exact ho.cut
  | cons p pairs ih =>
    obtain ⟨s, t⟩ := p
    have htrim : Text.trim [s.char].reverse = [s.char] :=
      Text.trim_eq_self_of_forall (List.forall_mem_singleton.2 s.isBlank_char)
    have hsecond : isSignAfter [s.char] t.operator = false := by cases s <;> cases t <;> rfl
    show cut [] (start.mark (s.char :: t.char :: (signText (flattened pairs) ++ operand))) = _
    rw [cut_sign_start, cut_sign_cons, htrim, hsecond, ih]
    rfl

theorem Chain.missing?_pairs (expr : String) (pairs : List (Sign × Sign)) :
    missing? expr (ofPairs operand pairs).first (ofPairs operand pairs).links = none := by
  induction pairs with
  | nil => simp [ofPairs, missing?, ho.ne_nil]
  | cons p pairs ih => exact ih

theorem Shape.ofExpr_pairs (s t : Sign) (pairs : List (Sign × Sign)) :
    ofExpr (signText (flattened ((s, t) :: pairs)) ++ operand) = .chain (Chain.ofPairs operand ((s, t) :: pairs)) := by
  have hmark : ExposesOnly (fun c => Comparison.isMark c = false) (signText (t :: flattened pairs) ++ operand) :=
    .append (.of_plain (forall_mem_signText Sign.isPlain_char _))
      (.of_forall (forall_mem_signText Sign.isMark_char _)) ho.mark
  have hchain : Chain.ofExpr? (s.char :: (signText (t :: flattened pairs) ++ operand)) =
      .ok (some (Chain.ofPairs operand ((s, t) :: pairs))) := by
    have hcut : Chain.cut [] (start.mark (s.char :: (signText (t :: flattened pairs) ++ operand))) = _ :=
      Chain.cut_pairs ho ((s, t) :: pairs)
    unfold Chain.ofExpr?
    rw [hcut]
    dsimp only
    rw [Chain.missing?_pairs ho]
    rfl
  exact (Shape.ofExpr_sign s hmark).trans (by rw [hchain])

end

/-! ## Their value -/

def valuesOfPairs (x : Float) : List (Sign × Sign) → Float × List (Operator × Float)
  | [] => (x, [])
  | (s, t) :: pairs =>
    let rest := valuesOfPairs x pairs
    (s.apply 0.0, (t.operator, rest.1) :: rest.2)

theorem Scope.operands_pairs (s : Scope) (operand : List Char)
    (hsign : ∀ sign : Sign, s.number [sign.char] = pure (sign.apply 0.0)) {β : Type}
    (k : Float → List (Operator × Float) → Run β) (pairs : List (Sign × Sign)) :
    (do
      let x ← s.number (Chain.ofPairs operand pairs).first
      let links ← (Chain.ofPairs operand pairs).links.mapM fun (op, e) => do return (op, ← s.number e)
      k x links) =
    (do
      let x ← s.number operand
      k (valuesOfPairs x pairs).1 (valuesOfPairs x pairs).2) := by
  induction pairs generalizing k with
  | nil => simp [Chain.ofPairs, valuesOfPairs]
  | cons p pairs ih =>
    obtain ⟨first, second⟩ := p
    have hrest := ih fun x links => k (first.apply 0.0) ((second.operator, x) :: links)
    simpa [Chain.ofPairs, valuesOfPairs, hsign] using hrest

theorem isSum_of_mem_valuesOfPairs (x : Float) (pairs : List (Sign × Sign)) :
    ∀ link ∈ (valuesOfPairs x pairs).2, link.1.isSum = true := by
  induction pairs with
  | nil => nofun
  | cons p pairs ih => exact List.forall_mem_cons.2 ⟨p.2.isSum_operator, ih⟩

/-- Zeros in front change nothing but the sign of a zero: what counts is the
operator before the last operand. -/
theorem foldLeft_pairs (x : Float) (pairs : List (Sign × Sign)) {z : Float} (hz : IsZero z) (s : Sign) :
    ∃ y, Chain.foldLeft z ((s.operator, (valuesOfPairs x pairs).1) :: (valuesOfPairs x pairs).2) = .ok y ∧
      SameNumber y (((pairs.map Prod.snd).getLastD s).apply x) := by
  induction pairs generalizing z s with
  | nil =>
    obtain ⟨y, hy, hsame⟩ := s.apply_operator hz x
    refine ⟨y, ?_, hsame⟩
    show (s.operator.apply z x >>= fun y => Chain.foldLeft y []) = _
    rw [hy]
    rfl
  | cons p pairs ih =>
    obtain ⟨first, second⟩ := p
    obtain ⟨w, hw, hzero⟩ := s.apply_operator_zero hz first.apply_zero
    obtain ⟨y, hy, hsame⟩ := ih hzero second
    refine ⟨y, ?_, ?_⟩
    · show (s.operator.apply z (first.apply 0.0) >>= fun w => Chain.foldLeft w _) = _
      rw [hw]
      exact hy
    · rwa [List.map_cons, List.getLastD_cons]

/-- Pairs of signs in front of an operand take one level, and leave of its value
all but the sign. -/
theorem levels_pairs {ctx : Context} (f : String → List Char → Run Value) (n : Nat) {operand : List Char}
    (ho : EndsChain operand) (s t : Sign) (pairs : List (Sign × Sign)) :
    ∃ value : Float → Float,
      levels ctx f (n + 3) (signText (flattened ((s, t) :: pairs)) ++ operand) =
        (do return .number (value (← levels ctx f (n + 2) operand).toNumber)) ∧
      ∀ x, SameNumber (value x) (((pairs.map Prod.snd).getLastD t).apply x) := by
  have htrim : Text.trim (signText (flattened ((s, t) :: pairs)) ++ operand) =
      signText (flattened ((s, t) :: pairs)) ++ operand := by
    refine Text.trim_eq_self ?_ fun c hc => ho.last c ?_
    · rintro _ ⟨⟩
      exact s.isBlank_char
    · rwa [List.getLast?_append_of_ne_nil _ ho.ne_nil] at hc
  have hsign : ∀ sign : Sign,
      (⟨ctx, levels ctx f (n + 2), f⟩ : Scope).number [sign.char] = pure (sign.apply 0.0) := by
    intro sign
    have hzero : levels ctx f (n + 2) [sign.char] = pure (.number (sign.apply 0.0)) := levels_sign_nil f n sign
    simp [Scope.number, hzero, Value.toNumber]
  choose value hvalue hsame using fun x => foldLeft_pairs x pairs s.apply_zero t
  refine ⟨value, ?_, hsame⟩
  have hfold : ∀ x, ctx.options.precedence.fold (valuesOfPairs x ((s, t) :: pairs)).1
      (valuesOfPairs x ((s, t) :: pairs)).2 = .ok (value x) := by
    intro x
    rw [Precedence.fold_of_isSum _ _ (isSum_of_mem_valuesOfPairs x ((s, t) :: pairs))]
    exact hvalue x
  rw [levels, htrim, Shape.ofExpr_pairs ho]
  refine ((⟨ctx, levels ctx f (n + 2), f⟩ : Scope).operands_pairs operand hsign _ ((s, t) :: pairs)).trans ?_
  simp [hfold, Scope.number]

/-! ## The signs that count -/

/-- The signs of a run that count: of an even number the last one, of an odd
number the last two, and a single one. -/
def effective (signs : List Sign) : List Sign := signs.drop (signs.length - 1 - signs.length % 2)

/-- The number with all of the signs in front. -/
def signedBy (signs : List Sign) (x : Float) : Float :=
  if signs.count .minus % 2 = 0 then x else -x

theorem signedBy_cons (s : Sign) (signs : List Sign) (x : Float) :
    signedBy (s :: signs) x = s.apply (signedBy signs x) := by
  cases s with
  | plus => rfl
  | minus =>
    have hcount : (Sign.minus :: signs).count .minus = signs.count .minus + 1 := List.count_cons_self
    unfold signedBy
    rw [hcount]
    by_cases heven : signs.count .minus % 2 = 0
    · rw [if_pos heven, if_neg (by omega)]
      rfl
    · rw [if_neg heven, if_pos (by omega)]
      exact (Number.neg_neg x).symm

theorem exists_pairs : ∀ signs : List Sign, ∃ pairs, ∃ last : Option Sign,
    signs = flattened pairs ++ last.toList
  | [] => ⟨[], none, rfl⟩
  | [s] => ⟨[], some s, rfl⟩
  | s :: t :: signs => by
    obtain ⟨pairs, last, hsigns⟩ := exists_pairs signs
    exact ⟨(s, t) :: pairs, last, by rw [hsigns]; rfl⟩

theorem effective_cons_cons {signs : List Sign} (h : 2 ≤ signs.length) (s t : Sign) :
    effective (s :: t :: signs) = effective signs := by
  have hlength : (s :: t :: signs).length - 1 - (s :: t :: signs).length % 2 =
      signs.length - 1 - signs.length % 2 + 2 := by
    rw [List.length_cons, List.length_cons]
    omega
  rw [effective, hlength]
  rfl

theorem effective_pairs (s t : Sign) (pairs : List (Sign × Sign)) (last : Option Sign) :
    effective (flattened ((s, t) :: pairs) ++ last.toList) = (pairs.map Prod.snd).getLastD t :: last.toList := by
  induction pairs generalizing s t with
  | nil => cases last <;> simp [effective, flattened]
  | cons p pairs ih =>
    have hlength : 2 ≤ (flattened (p :: pairs) ++ last.toList).length := by simp
    have hrest : effective (flattened ((s, t) :: p :: pairs) ++ last.toList) =
        effective (flattened (p :: pairs) ++ last.toList) := effective_cons_cons hlength s t
    rw [hrest, ih p.1 p.2, List.map_cons, List.getLastD_cons]

/-! ## Formulas -/

/-- An operand with signs is evaluated like the operand on fewer levels, and its
number gets the signs that count. -/
theorem levels_signs {ctx : Context} (f : String → List Char → Run Value) {e : List Char} (he : IsOperand e)
    {signs : List Sign} (hne : signs ≠ []) :
    ∃ n ≤ levelLimit, ∃ value : Float → Float,
      levels ctx f levelLimit (signText signs ++ e) =
        (do return .number (value (← levels ctx f n e).toNumber)) ∧
      ∀ x, SameNumber (value x) (signedBy (effective signs) x) := by
  obtain ⟨pairs, last, rfl⟩ := exists_pairs signs
  rcases pairs with _ | ⟨⟨s, t⟩, pairs⟩
  · cases last with
    | none => exact absurd rfl hne
    | some u =>
      refine ⟨127, by decide, u.apply, he.levels_sign f 126 u, fun x => .inl ?_⟩
      exact (signedBy_cons u [] x).symm
  · rw [effective_pairs]
    cases last with
    | none =>
      obtain ⟨value, hvalue, hsame⟩ := levels_pairs f 125 he.endsChain s t pairs
      refine ⟨127, by decide, value, ?_, fun x => ?_⟩
      · rw [Option.toList_none, List.append_nil]
        exact hvalue
      · rw [Option.toList_none, signedBy_cons]
        exact hsame x
    | some u =>
      obtain ⟨value, hvalue, hsame⟩ := levels_pairs f 125 (he.endsChain_sign u) s t pairs
      refine ⟨126, by decide, fun x => value (u.apply x), ?_, fun x => ?_⟩
      · have hoperand : levels ctx f (125 + 2) (u.char :: e) = _ := he.levels_sign f 125 u
        rw [hoperand] at hvalue
        rw [Option.toList_some, signText, List.map_append, List.append_assoc]
        refine hvalue.trans ?_
        simp [Value.toNumber]
      · rw [Option.toList_some, signedBy_cons, signedBy_cons]
        exact hsame (u.apply x)

theorem capitalized_append_singleton {c : Char} (hquote : c ≠ quoteMark) (hupper : Text.upperChar c = [c])
    (quoted : Bool) (cs : List Char) : capitalized quoted (cs ++ [c]) = capitalized quoted cs ++ [c] := by
  induction cs generalizing quoted with
  | nil => cases quoted <;> simp [capitalized, hquote, hupper]
  | cons d ds ih =>
    rw [List.cons_append, capitalized, capitalized]
    split
    · rw [ih, List.cons_append]
    · split
      · rw [ih, List.cons_append]
      · rw [ih, List.append_assoc]

theorem isBlank_ends_of_capitalized {e : List Char}
    (hfirst : ∀ c ∈ (capitalized false e).head?, Text.isBlank c = false)
    (hlast : ∀ c ∈ (capitalized false e).getLast?, Text.isBlank c = false) :
    (∀ c ∈ e.head?, Text.isBlank c = false) ∧ ∀ c ∈ e.getLast?, Text.isBlank c = false := by
  have hquote : ∀ c, Text.isBlank c = true → c ≠ quoteMark := by
    rintro _ hc rfl
    cases hc
  refine ⟨fun c hc => Bool.eq_false_iff.2 fun hblank => ?_, fun c hc => Bool.eq_false_iff.2 fun hblank => ?_⟩
  · obtain ⟨cs, rfl⟩ : ∃ cs, e = c :: cs := ⟨e.tail, List.eq_cons_of_mem_head? hc⟩
    have hhead : (capitalized false (c :: cs)).head? = some c := by
      simp [capitalized, hquote c hblank, Text.upperChar_of_isBlank hblank]
    exact Bool.eq_false_iff.1 (hfirst c hhead) hblank
  · obtain ⟨cs, rfl⟩ := List.getLast?_eq_some_iff.1 hc
    rw [capitalized_append_singleton (hquote c hblank) (Text.upperChar_of_isBlank hblank)] at hlast
    exact Bool.eq_false_iff.1 (hlast c List.getLast?_concat) hblank

theorem exprOf_signs {e : List Char} (he : IsOperand (capitalized false e)) (signs : List Sign) :
    exprOf (formulaMark :: (signText signs ++ e)) = signText signs ++ capitalized false e := by
  obtain ⟨hhead, hlast⟩ := isBlank_ends_of_capitalized (fun _ hc => he.head hc) fun _ hc => (he.last hc).1
  have hne : e ≠ [] := by
    rintro rfl
    exact he.ne_nil rfl
  have hbody : Text.trim (signText signs ++ e) = signText signs ++ e := by
    refine Text.trim_eq_self (fun c hc => ?_) (fun c hc => hlast c ?_)
    · cases signs with
      | nil => exact hhead c hc
      | cons s signs =>
        cases hc
        exact s.isBlank_char
    · rwa [List.getLast?_append_of_ne_nil _ hne] at hc
  have hformula : Text.trim (formulaMark :: (signText signs ++ e)) = formulaMark :: (signText signs ++ e) := by
    refine Text.trim_eq_self ?_ (fun c hc => hlast c ?_)
    · rintro _ ⟨⟩
      decide
    · rwa [← List.cons_append, List.getLast?_append_of_ne_nil _ hne] at hc
  have hsigns : Balanced (signText signs) := .of_plain (forall_mem_signText Sign.isPlain_char signs)
  unfold exprOf
  rw [hformula]
  dsimp only
  rw [if_pos rfl, hbody, hsigns.capitalized]

/-- A run of signs in front of an operand that has a number as its value. Unless
the whole nests too deep, the value is that number with the signs that count,
and then the sign of a zero is left open. -/
theorem evaluate_signs {ctx : Context} {e : List Char} (he : IsOperand (capitalized false e)) {x : Float}
    (hx : evaluate ctx (String.ofList (formulaMark :: e)) = .ok (.number x)) (signs : List Sign)
    (hroom : ∀ expr, evaluate ctx (String.ofList (formulaMark :: (signText signs ++ e))) ≠
      .error (.nestedTooDeep levelLimit expr)) :
    ∃ y, evaluate ctx (String.ofList (formulaMark :: (signText signs ++ e))) = .ok (.number y) ∧
      SameNumber y (signedBy (effective signs) x) := by
  rcases eq_or_ne signs [] with rfl | hne
  · exact ⟨x, hx, .refl x⟩
  obtain ⟨m, hrun⟩ := evaluate_eq_ok.1 hx
  have hplain : exprOf (formulaMark :: e) = capitalized false e := exprOf_signs he []
  rw [String.toList_ofList, hplain] at hrun
  obtain ⟨n, hn, value, hvalue, hsame⟩ := levels_signs (cellFormula ctx ctx.options.maxDepth []) he hne
  have hexpr : exprOf (String.ofList (formulaMark :: (signText signs ++ e))).toList =
      signText signs ++ capitalized false e := by
    rw [String.toList_ofList, exprOf_signs he signs]
  -- the operand has fewer levels here than it has by itself
  rcases levels_unlessTooDeep (cellFormula ctx ctx.options.maxDepth []) hn (capitalized false e) ∅ with hfewer | hdeep
  · refine ⟨value x, evaluate_eq_ok.2 ⟨m, ?_⟩, hsame x⟩
    rw [hexpr, hvalue, bind_apply, hfewer, hrun]
    rfl
  · have hwhole : TooDeep (levels ctx (cellFormula ctx ctx.options.maxDepth []) levelLimit
        (exprOf (String.ofList (formulaMark :: (signText signs ++ e))).toList) ∅) := by
      rw [hexpr, hvalue]
      exact hdeep.bind _
    obtain ⟨expr, hfault⟩ := evaluate_of_tooDeep hwhole
    exact absurd hfault (hroom expr)

/-- Of three signs the last two count. -/
theorem evaluate_signs_group :
    evaluate linked "=(2*3)" = .ok (.number (numberOf ['2'] * numberOf ['3'])) ∧
      (∀ expr, evaluate linked "=-+-(2*3)" ≠ .error (.nestedTooDeep levelLimit expr)) ∧
      ∃ y, evaluate linked "=-+-(2*3)" = .ok (.number y) ∧
        SameNumber y (signedBy (effective [.minus, .plus, .minus]) (numberOf ['2'] * numberOf ['3'])) := by
  have hvalue : evaluate linked "=(2*3)" = .ok (.number (numberOf ['2'] * numberOf ['3'])) := by rfl
  have hsigned : evaluate linked "=-+-(2*3)" =
      .ok (.number (-0.0 + -(numberOf ['2'] * numberOf ['3']))) := by rfl
  have hroom : ∀ expr, evaluate linked "=-+-(2*3)" ≠ .error (.nestedTooDeep levelLimit expr) := by
    intro expr
    rw [hsigned]
    nofun
  have hgroup : group? (capitalized false "(2*3)".toList) = some "2*3".toList := by decide +kernel
  exact ⟨hvalue, hroom, evaluate_signs (.group hgroup) hvalue [.minus, .plus, .minus] hroom⟩

/-- Two minuses do not undo each other. -/
theorem evaluate_signs_twice :
    IsOperand (capitalized false "5".toList) ∧ evaluate linked "=5" = .ok (.number (numberOf ['5'])) ∧
      ∃ y, evaluate linked "=--5" = .ok (.number y) ∧
        ¬ SameNumber y (signedBy [.minus, .minus] (numberOf ['5'])) := by
  refine ⟨.numeral (by decide +kernel), by rfl, -0.0 - numberOf ['5'], by rfl, ?_⟩
  unfold SameNumber IsZero
  decide +kernel

end Spreadsheet.Formula

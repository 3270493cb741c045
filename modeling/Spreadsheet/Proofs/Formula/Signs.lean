import Spreadsheet.Proofs.Formula.Reference
import Spreadsheet.Proofs.Number.Negation

/-
  Signs in front of a text.

  A plus or a minus with nothing before it is no operator, it belongs to the text
  after it. That text is then evaluated on a level of its own, unless it is a
  number together with the minus.
-/

namespace Spreadsheet.Formula

open Scan (start)

/-- A plus or a minus in front of a text. -/
inductive Sign where
  | plus | minus
  deriving DecidableEq, Repr

namespace Sign

def operator : Sign → Operator
  | plus => .add
  | minus => .subtract

def char (s : Sign) : Char := s.operator.symbol

def apply : Sign → Float → Float
  | plus, x => x
  | minus, x => -x

variable (s : Sign)

theorem ofChar?_char : Operator.ofChar? s.char = some s.operator := by cases s <;> rfl

theorem isSign_operator : s.operator.isSign = true := by cases s <;> rfl

theorem isPlain_char : IsPlain s.char := isPlain_symbol s.operator

theorem isBlank_char : Text.isBlank s.char = false := by cases s <;> rfl

theorem isMark_char : Comparison.isMark s.char = false := by cases s <;> rfl

theorem mark_char (t : List Char) : start.mark (s.char :: t) = (s.char, true) :: start.mark t := by
  cases s <;> rfl

theorem apply_zero : Number.IsZero (s.apply 0.0) := by
  cases s with
  | plus => exact .inl rfl
  | minus => exact .inr rfl

theorem apply_operator {z : Float} (hz : Number.IsZero z) (x : Float) :
    ∃ y, s.operator.apply z x = .ok y ∧ Number.SameNumber y (s.apply x) := by
  cases s with
  | plus => exact ⟨z + x, rfl, .zero_add hz x⟩
  | minus => exact ⟨z - x, rfl, .zero_sub hz x⟩

theorem apply_operator_zero {z w : Float} (hz : Number.IsZero z) (hw : Number.IsZero w) :
    ∃ y, s.operator.apply z w = .ok y ∧ Number.IsZero y := by
  cases s with
  | plus => exact ⟨z + w, rfl, hz.add hw⟩
  | minus => exact ⟨z - w, rfl, hz.sub hw⟩

end Sign

/-- A run of signs as it is written. -/
def signText (signs : List Sign) : List Char := signs.map Sign.char

theorem forall_mem_signText {p : Char → Prop} (hp : ∀ s : Sign, p s.char) (signs : List Sign) :
    ∀ c ∈ signText signs, p c :=
  List.forall_mem_map.2 fun s _ => hp s

/-! ## Shapes -/

section

variable (s : Sign) {t : List Char}

theorem ExposesOnly.sign {p : Char → Prop} (hs : p s.char) (ht : ExposesOnly p t) :
    ExposesOnly p (s.char :: t) := by
  intro q hq hexposed
  rw [s.mark_char] at hq
  rcases List.mem_cons.1 hq with rfl | hq
  · exact hs
  · exact ht q hq hexposed

theorem Chain.cut_of_exposesOnly (ht : ExposesOnly (fun c => Operator.ofChar? c = none) t)
    (pending : List Char) :
    cut pending (start.mark t) = ⟨Text.trim (pending.reverse ++ t), []⟩ := by
  have hcut := cut_of_hidden ht pending []
  rw [List.append_nil, Scan.map_fst_mark] at hcut
  rw [hcut, cut, List.reverse_append, List.reverse_reverse]

/-- A sign stays with the operand before it, or ends it. -/
theorem Chain.cut_sign_cons (pending t : List Char) :
    cut pending (start.mark (s.char :: t)) =
      if isSignAfter (Text.trim pending.reverse) s.operator then cut (s.char :: pending) (start.mark t)
      else ⟨Text.trim pending.reverse,
        (s.operator, (cut [] (start.mark t)).first) :: (cut [] (start.mark t)).links⟩ := by
  rw [s.mark_char, cut, if_pos rfl, s.ofChar?_char]

theorem Chain.cut_sign_start (t : List Char) :
    cut [] (start.mark (s.char :: t)) = cut [s.char] (start.mark t) := by
  have hsign : isSignAfter (Text.trim [].reverse) s.operator = true := by cases s <;> rfl
  rw [cut_sign_cons, if_pos hsign]

theorem Chain.cut_sign (ht : ExposesOnly (fun c => Operator.ofChar? c = none) t) :
    cut [] (start.mark (s.char :: t)) = ⟨Text.trim (s.char :: t), []⟩ := by
  rw [cut_sign_start, cut_of_exposesOnly ht]
  rfl

theorem Chain.ofExpr?_sign (ht : ExposesOnly (fun c => Operator.ofChar? c = none) t) :
    ofExpr? (s.char :: t) = .ok none := by
  unfold ofExpr?
  rw [cut_sign s ht]
  rfl

/-- A text that starts with a sign and exposes no comparison is a chain or an
atom. -/
theorem Shape.ofExpr_sign (ht : ExposesOnly (fun c => Comparison.isMark c = false) t) :
    ofExpr (s.char :: t) =
      match Chain.ofExpr? (s.char :: t) with
      | .error fault => .malformed fault
      | .ok (some c) => .chain c
      | .ok none => ofAtom (s.char :: t) := by
  have hempty : (s.char :: t).isEmpty = false := rfl
  have hquoted : Quoted.text? (s.char :: t) = none := by
    refine Quoted.text?_of_head ?_
    cases s <;> simp [Sign.char, Sign.operator, Operator.symbol, quoteMark]
  have hcall : call? (s.char :: t) = none := by
    refine call?_of_head ?_
    cases s <;> rfl
  have hgroup : group? (s.char :: t) = none := by cases s <;> rfl
  have hsplit : Comparison.split? (s.char :: t) = none :=
    Comparison.split?_of_exposesOnly (.sign s s.isMark_char ht)
  rw [ofExpr, hempty, hquoted, hcall, hgroup, hsplit]
  rfl

theorem Shape.ofExpr_sign_atom (hoperator : ExposesOnly (fun c => Operator.ofChar? c = none) t)
    (hmark : ExposesOnly (fun c => Comparison.isMark c = false) t) : ofExpr (s.char :: t) = ofAtom (s.char :: t) := by
  rw [ofExpr_sign s hmark, Chain.ofExpr?_sign s hoperator]

theorem Shape.ofAtom_sign (t : List Char) :
    ofAtom (s.char :: t) = match s, numberOf? (s.char :: t) with
      | .minus, some x => .number x
      | .minus, none => .negated t
      | .plus, _ => .affirmed t := by
  have hhead : (s.char :: t).head?.any Text.isCapital = false := by cases s <;> rfl
  have hword : ∀ {c : Char} {cs : List Char}, Text.isCapital c = true → s.char :: t ≠ c :: cs := by
    rintro c cs hc heq
    rw [heq] at hhead
    exact Bool.false_ne_true (hhead.symm.trans hc)
  unfold ofAtom
  rw [isRangeForm_of_head hhead, isAddressForm, afterAddress?_of_head hhead, if_neg (by decide),
    if_neg (by decide), if_neg (hword (by decide)), if_neg (hword (by decide))]
  cases s <;> cases numberOf? (_ :: t) <;> rfl

end

/-! ## Numbers -/

/-- The number of a text that ends in neither blanks nor percent signs, with a
comma read as a point. -/
theorem numberOf?_of_ends {t : List Char} (hne : t ≠ [])
    (hhead : ∀ c ∈ t.head?, Text.isBlank c = false ∧ c ≠ '$')
    (hlast : ∀ c ∈ t.getLast?, Text.isBlank c = false ∧ c ≠ '%') :
    numberOf? t = Number.ofText (t.map fun c => if c = ',' then '.' else c) := by
  have htrim : Text.trim t = t := Text.trim_eq_self (fun c hc => (hhead c hc).1) (fun c hc => (hlast c hc).1)
  have hpercent : Text.dropEndWhile (· == '%') t = t :=
    Text.dropEndWhile_eq_self fun c hc => beq_false_of_ne (hlast c hc).2
  have hempty : t.isEmpty = false := List.isEmpty_eq_false_iff.2 hne
  unfold numberOf?
  rw [htrim]
  dsimp only
  split
  · exact absurd rfl (hhead '$' rfl).2
  · rw [hpercent, htrim, hempty]
    rfl

theorem numberOf?_eq_ofText {t : List Char} (hne : t ≠ [])
    (ht : ∀ c ∈ t, Text.isBlank c = false ∧ c ≠ '$' ∧ c ≠ '%' ∧ c ≠ ',') : numberOf? t = Number.ofText t := by
  have hcomma : (t.map fun c => if c = ',' then '.' else c) = t :=
    (List.map_congr_left fun c hc => if_neg (ht c hc).2.2.2).trans (List.map_id' t)
  rw [numberOf?_of_ends hne, hcomma]
  · exact fun c hc => ⟨(ht c (List.mem_of_mem_head? hc)).1, (ht c (List.mem_of_mem_head? hc)).2.1⟩
  · exact fun c hc => ⟨(ht c (List.mem_of_mem_getLast? hc)).1, (ht c (List.mem_of_mem_getLast? hc)).2.2.1⟩

theorem ne_of_isAtomChar {c : Char} (h : isAtomChar c = true) : c ≠ '$' ∧ c ≠ '%' ∧ c ≠ ',' := by
  refine ⟨?_, ?_, ?_⟩ <;> intro hc <;> subst hc <;> cases h

theorem numberOf?_sign (s : Sign) {d : Char} (hd : Text.isDigit d = true) {ds : List Char}
    (hatom : ∀ c ∈ d :: ds, isAtomChar c = true) :
    numberOf? (s.char :: d :: ds) = (numberOf? (d :: ds)).map s.apply := by
  have hchars : ∀ c ∈ d :: ds, Text.isBlank c = false ∧ c ≠ '$' ∧ c ≠ '%' ∧ c ≠ ',' :=
    fun c hc => ⟨isBlank_of_isAtomChar (hatom c hc), ne_of_isAtomChar (hatom c hc)⟩
  have hsigned : ∀ c ∈ s.char :: d :: ds, Text.isBlank c = false ∧ c ≠ '$' ∧ c ≠ '%' ∧ c ≠ ',' := by
    refine List.forall_mem_cons.2 ⟨?_, hchars⟩
    cases s <;> exact ⟨by decide, by decide, by decide, by decide⟩
  rw [numberOf?_eq_ofText (List.cons_ne_nil _ _) hsigned, numberOf?_eq_ofText (List.cons_ne_nil _ _) hchars]
  cases s with
  | plus => exact (Number.ofText_plus hd ds).trans (congrFun Option.map_id _).symm
  | minus => exact Number.ofText_minus hd ds

theorem numberOf?_minus_of_head {t : List Char}
    (hhead : ∀ c ∈ t.head?, Text.isDigit c = false ∧ c ≠ '.' ∧ c ≠ ',')
    (hlast : ∀ c ∈ t.getLast?, Text.isBlank c = false ∧ c ≠ '%') : numberOf? ('-' :: t) = none := by
  rw [numberOf?_of_ends (List.cons_ne_nil _ _)]
  · refine Number.ofText_minus_of_head fun c hc => ?_
    cases t with
    | nil => cases hc
    | cons d ds =>
      obtain ⟨hdigit, hpoint, hcomma⟩ := hhead d rfl
      simp only [List.map_cons, List.head?_cons, if_neg hcomma] at hc
      cases hc
      exact ⟨hdigit, hpoint⟩
  · rintro _ ⟨⟩
    exact ⟨by decide, by decide⟩
  · intro c hc
    cases t with
    | nil =>
      cases hc
      exact ⟨by decide, by decide⟩
    | cons d ds => exact hlast c (by rwa [List.getLast?_cons_cons] at hc)

/-! ## Values -/

section

variable {ctx : Context} (f : String → List Char → Run Value) (n : Nat) (s : Sign) {t : List Char}

/-- A text with a sign that is no part of a number is evaluated like the text, on
one level more. -/
theorem levels_sign (htrim : Text.trim (s.char :: t) = s.char :: t)
    (hoperator : ExposesOnly (fun c => Operator.ofChar? c = none) t)
    (hmark : ExposesOnly (fun c => Comparison.isMark c = false) t)
    (hnumber : s = .minus → numberOf? (s.char :: t) = none) :
    levels ctx f (n + 1) (s.char :: t) =
      (do return .number (s.apply (← levels ctx f n t).toNumber)) := by
  rw [levels, htrim, Shape.ofExpr_sign_atom s hoperator hmark, Shape.ofAtom_sign]
  cases s with
  | plus => simp [Scope.shape, Scope.number, Sign.apply]
  | minus =>
    rw [hnumber rfl]
    simp [Scope.shape, Scope.number, Sign.apply]

theorem levels_sign_nil : levels ctx f (n + 2) [s.char] = pure (.number (s.apply 0.0)) := by
  have hnone : ∀ p : Char → Prop, ExposesOnly p [] := fun _ => nofun
  have hblank : levels ctx f (n + 1) [] = pure .empty := rfl
  rw [levels_sign f (n + 1) s ?_ (hnone _) (hnone _) ?_, hblank]
  · rfl
  · cases s <;> rfl
  · rintro rfl
    exact numberOf?_minus_of_head nofun nofun

section

variable {d : Char} (hd : Text.isDigit d = true) {ds : List Char} (hatom : ∀ c ∈ d :: ds, isAtomChar c = true)

include hd hatom

theorem levels_atom : levels ctx f (n + 1) (d :: ds) = pure (.number (numberOf (d :: ds))) := by
  rw [levels, trim_of_isAtomChar hatom, Shape.ofExpr_atom (List.cons_ne_nil d ds) hatom, Shape.ofAtom_of_isDigit hd]
  rfl

/-- An atom with a sign in front is its number with the sign, also where the number
is too large and counts as zero. -/
theorem levels_sign_atom :
    levels ctx f (n + 2) (s.char :: d :: ds) = pure (.number (s.apply (numberOf (d :: ds)))) := by
  have htrim : Text.trim (s.char :: d :: ds) = s.char :: d :: ds :=
    Text.trim_eq_self_of_forall
      (List.forall_mem_cons.2 ⟨s.isBlank_char, fun c hc => isBlank_of_isAtomChar (hatom c hc)⟩)
  have hoperator : ExposesOnly (fun c => Operator.ofChar? c = none) (d :: ds) :=
    .of_forall fun c hc => ofChar?_of_isAtomChar (hatom c hc)
  have hmark : ExposesOnly (fun c => Comparison.isMark c = false) (d :: ds) :=
    .of_forall fun c hc => isMark_of_isAtomChar (hatom c hc)
  by_cases hnumber : s = .minus → numberOf? (s.char :: d :: ds) = none
  · rw [levels_sign f (n + 1) s htrim hoperator hmark hnumber, levels_atom f n hd hatom]
    rfl
  · obtain ⟨rfl, hsome⟩ := Classical.not_imp.1 hnumber
    have hminus := numberOf?_sign .minus hd hatom
    rw [levels, htrim, Shape.ofExpr_sign_atom _ hoperator hmark, Shape.ofAtom_sign]
    cases hx : numberOf? (d :: ds) with
    | none => exact absurd (by rw [hminus, hx]; rfl) hsome
    | some x =>
      rw [hminus, numberOf, hx]
      rfl

end

end

end Spreadsheet.Formula

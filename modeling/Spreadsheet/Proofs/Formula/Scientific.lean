import Spreadsheet.Proofs.Formula.Limits
import Spreadsheet.Proofs.Formula.Signs
import Spreadsheet.Proofs.Formula.Tree
import Spreadsheet.Proofs.Number.RoundTrip

/-
  Numbers in scientific notation.

  The sign of an exponent is told from an operator by the mantissa before it, and
  a mantissa with a sign of its own is not taken for one. So a literal is read as
  one number unless it has both signs. With both it is a difference or a sum, and
  its value is that of the exponent (`evaluate_scientific`).
-/

namespace Spreadsheet.Formula

open Scan (start)
open Number (IsPositional IsZero SameNumber)

/-- A number in scientific notation. Either sign may be left out, and the point
stands only in front of digits. -/
structure Scientific where
  sign : Option Sign
  whole : List Char
  fraction : List Char
  exponentSign : Option Sign
  exponent : List Char
  whole_ne_nil : whole ≠ []
  exponent_ne_nil : exponent ≠ []
  isDigit_mantissa : ∀ c ∈ whole ++ fraction, Text.isDigit c = true
  isDigit_exponent : ∀ c ∈ exponent, Text.isDigit c = true

namespace Scientific

variable (t : Scientific)

/-- The digits before the exponent, with the point among them. -/
def mantissa : List Char := if t.fraction = [] then t.whole else t.whole ++ '.' :: t.fraction

/-- The mantissa and the mark of the exponent. -/
def stem : List Char := t.mantissa ++ ['E']

def unsigned : List Char := t.stem ++ (signText t.exponentSign.toList ++ t.exponent)

def text : List Char := signText t.sign.toList ++ t.unsigned

/-! ## Characters -/

theorem isPositional : IsPositional t.mantissa t.whole t.fraction := ⟨rfl, t.whole_ne_nil, t.isDigit_mantissa⟩

theorem exists_cons_stem : ∃ d ds, t.stem = d :: ds ∧ Text.isDigit d = true := by
  obtain ⟨d, ds, hds, hd⟩ := t.isPositional.exists_cons
  exact ⟨d, ds ++ ['E'], by rw [stem, hds, List.cons_append], hd⟩

theorem isAtomChar_stem : ∀ c ∈ t.stem, isAtomChar c = true := by
  intro c hc
  rcases List.mem_append.1 hc with hc | hc
  · exact isAtomChar_iff.2 (.inr (t.isPositional.isDigit_or_point c hc))
  · rw [List.mem_singleton.1 hc]
    rfl

theorem isAtomChar_exponent : ∀ c ∈ t.exponent, isAtomChar c = true :=
  fun c hc => isAtomChar_iff.2 (.inr (.inl (t.isDigit_exponent c hc)))

theorem forall_mem_text {p : Char → Prop} (hatom : ∀ c, isAtomChar c = true → p c)
    (hsign : ∀ s : Sign, p s.char) : ∀ c ∈ t.text, p c := by
  have hstem : ∀ c ∈ t.stem, p c := fun c hc => hatom c (t.isAtomChar_stem c hc)
  have hexponent : ∀ c ∈ t.exponent, p c := fun c hc => hatom c (t.isAtomChar_exponent c hc)
  simp only [text, unsigned, List.forall_mem_append]
  exact ⟨forall_mem_signText hsign _, hstem, forall_mem_signText hsign _, hexponent⟩

theorem isPlain_text : ∀ c ∈ t.text, IsPlain c :=
  t.forall_mem_text (fun _ hc => isPlain_of_isAtomChar hc) Sign.isPlain_char

theorem isBlank_text : ∀ c ∈ t.text, Text.isBlank c = false :=
  t.forall_mem_text (fun _ hc => isBlank_of_isAtomChar hc) Sign.isBlank_char

theorem isMark_text : ∀ c ∈ t.text, Comparison.isMark c = false :=
  t.forall_mem_text (fun _ hc => isMark_of_isAtomChar hc) Sign.isMark_char

theorem exprOf_text : exprOf (formulaMark :: t.text) = t.text := by
  obtain ⟨d, ds, hds, -⟩ := t.exists_cons_stem
  have hne : t.text ≠ [] := by simp [text, unsigned, hds]
  exact (Balanced.of_plain t.isPlain_text).exprOf hne (Text.trim_eq_self_of_forall t.isBlank_text)

/-! ## Where it is cut -/

theorem isMantissa_stem : Chain.isMantissa t.stem = true := by
  have hend : ∀ c ∈ ['E'].head?, Text.isDigit c = false := by
    rintro _ ⟨⟩
    rfl
  have hpoint : ∀ c ∈ ('.' :: (t.fraction ++ ['E'])).head?, Text.isDigit c = false := by
    rintro _ ⟨⟩
    rfl
  by_cases hfraction : t.fraction = []
  · obtain ⟨htake, hdrop⟩ := Text.split_append t.isPositional.isDigit_whole hend
    simp [Chain.isMantissa, stem, mantissa, hfraction, htake, hdrop, t.whole_ne_nil]
  · obtain ⟨-, hdrop⟩ := Text.split_append t.isPositional.isDigit_whole hpoint
    obtain ⟨htake, hrest⟩ := Text.split_append t.isPositional.isDigit_fraction hend
    simp [Chain.isMantissa, stem, mantissa, hfraction, htake, hdrop, hrest]

/-- A mantissa with a sign is not taken for one. -/
theorem isMantissa_sign (s : Sign) (cs : List Char) : Chain.isMantissa (s.char :: cs) = false := by
  cases s <;> rfl

/-- All up to the exponent is the start of an operand. -/
theorem cut_stem (rest : List Char) :
    Chain.cut [] (start.mark (signText t.sign.toList ++ (t.stem ++ rest))) =
      Chain.cut (signText t.sign.toList ++ t.stem).reverse (start.mark rest) := by
  have hhidden : ExposesOnly (fun c => Operator.ofChar? c = none) t.stem :=
    .of_forall fun c hc => ofChar?_of_isAtomChar (t.isAtomChar_stem c hc)
  have hbalanced : Balanced t.stem := .of_plain fun c hc => isPlain_of_isAtomChar (t.isAtomChar_stem c hc)
  have hmark := hbalanced.mark_append rest
  cases hs : t.sign with
  | none =>
    have hcut := Chain.cut_of_hidden hhidden [] (start.mark rest)
    simpa [signText, hmark] using hcut
  | some s =>
    have hcut := Chain.cut_of_hidden hhidden [s.char] (start.mark rest)
    show Chain.cut [] (start.mark (s.char :: (t.stem ++ rest))) = _
    rw [Chain.cut_sign_start, hmark, hcut]
    simp [signText]

theorem cut_exponent (pending : List Char) :
    Chain.cut pending (start.mark t.exponent) = ⟨Text.trim (pending.reverse ++ t.exponent), []⟩ :=
  Chain.cut_of_exposesOnly (.of_forall fun c hc => ofChar?_of_isAtomChar (t.isAtomChar_exponent c hc)) pending

theorem ofExpr?_of_none (h : t.sign = none ∨ t.exponentSign = none) : Chain.ofExpr? t.text = .ok none := by
  have hcut : (Chain.cut [] (start.mark t.text)).links = [] := by
    rw [text, unsigned, cut_stem]
    cases he : t.exponentSign with
    | none =>
      show (Chain.cut _ (start.mark t.exponent)).links = []
      rw [cut_exponent]
    | some e =>
      have hs : t.sign = none := h.resolve_right (by rw [he]; nofun)
      have htrim : Text.trim t.stem = t.stem := trim_of_isAtomChar t.isAtomChar_stem
      have hmantissa : Chain.isSignAfter t.stem e.operator = true := by
        rw [Chain.isSignAfter, e.isSign_operator, t.isMantissa_stem, Bool.or_true]
        rfl
      rw [hs]
      show (Chain.cut t.stem.reverse (start.mark (e.char :: t.exponent))).links = []
      rw [Chain.cut_sign_cons, List.reverse_reverse, htrim, if_pos hmantissa, cut_exponent]
  unfold Chain.ofExpr?
  dsimp only
  rw [hcut]
  rfl

/-- With both signs the one in the exponent is an operator. -/
theorem ofExpr?_of_some {s e : Sign} (hs : t.sign = some s) (he : t.exponentSign = some e) :
    Chain.ofExpr? t.text = .ok (some ⟨s.char :: t.stem, [(e.operator, t.exponent)]⟩) := by
  have hcut : Chain.cut [] (start.mark t.text) = ⟨s.char :: t.stem, [(e.operator, t.exponent)]⟩ := by
    have htrim : Text.trim (s.char :: t.stem) = s.char :: t.stem := by
      refine Text.trim_eq_self_of_forall (List.forall_mem_cons.2 ⟨s.isBlank_char, fun c hc => ?_⟩)
      exact isBlank_of_isAtomChar (t.isAtomChar_stem c hc)
    have hmantissa : Chain.isSignAfter (s.char :: t.stem) e.operator = false := by
      rw [Chain.isSignAfter, isMantissa_sign]
      exact Bool.and_false _
    have hexponent : Text.trim t.exponent = t.exponent := trim_of_isAtomChar t.isAtomChar_exponent
    rw [text, unsigned, cut_stem, hs, he]
    show Chain.cut (s.char :: t.stem).reverse (start.mark (e.char :: t.exponent)) = _
    rw [Chain.cut_sign_cons, List.reverse_reverse, htrim, hmantissa]
    simp [cut_exponent, hexponent]
  unfold Chain.ofExpr?
  rw [hcut]
  simp [Chain.missing?, t.exponent_ne_nil]

/-! ## Values -/

variable {ctx : Context} (f : String → List Char → Run Value) (n : Nat)

theorem trim_text : Text.trim t.text = t.text := Text.trim_eq_self_of_forall t.isBlank_text

/-- The number as it is evaluated. A minus also goes with the zero that a number
out of range counts as. -/
def number (t : Scientific) : Float :=
  if t.sign = some .minus ∧ numberOf? t.text = none then -0.0 else numberOf t.text

theorem levels_unsigned (hs : t.sign = none) :
    levels ctx f (n + 1) t.text = pure (.number (numberOf t.text)) := by
  obtain ⟨d, ds, hds, hd⟩ := t.exists_cons_stem
  have htext : t.text = d :: (ds ++ (signText t.exponentSign.toList ++ t.exponent)) := by
    rw [text, unsigned, hs, hds]
    rfl
  have hmark : ExposesOnly (fun c => Comparison.isMark c = false) t.text := .of_forall t.isMark_text
  have hchain := t.ofExpr?_of_none (.inl hs)
  rw [levels, trim_text]
  rw [htext] at hmark hchain ⊢
  rw [Shape.ofExpr_of_isDigit hd hmark hchain]
  rfl

theorem levels_signed {s : Sign} (hs : t.sign = some s) (he : t.exponentSign = none) :
    levels ctx f (n + 2) t.text = pure (.number t.number) := by
  obtain ⟨d, ds, hds, hd⟩ := t.exists_cons_stem
  have hunsigned : t.unsigned = d :: (ds ++ t.exponent) := by
    rw [unsigned, he, hds]
    rfl
  have hatom : ∀ c ∈ d :: (ds ++ t.exponent), isAtomChar c = true := by
    rw [← List.cons_append, ← hds]
    exact List.forall_mem_append.2 ⟨t.isAtomChar_stem, t.isAtomChar_exponent⟩
  have htext : t.text = s.char :: d :: (ds ++ t.exponent) := by
    rw [text, hs, hunsigned]
    rfl
  have hnumber : t.number = s.apply (numberOf (d :: (ds ++ t.exponent))) := by
    have hsigned := numberOf?_sign s hd hatom
    rw [number, numberOf, numberOf, htext, hs, hsigned]
    cases numberOf? (d :: (ds ++ t.exponent)) with
    | some x => simp
    | none => cases s <;> simp [Sign.apply]
  rw [hnumber, htext, levels_sign_atom f n s hd hatom]

/-- A mantissa without the digits of an exponent is no number. -/
theorem numberOf?_stem : numberOf? t.stem = none := by
  have hend : ∀ c ∈ ['E'].head?, Text.isDigit c = false ∧ c ≠ '.' := by
    rintro _ ⟨⟩
    exact ⟨rfl, by decide⟩
  have hchars : ∀ c ∈ t.stem, Text.isBlank c = false ∧ c ≠ '$' ∧ c ≠ '%' ∧ c ≠ ',' :=
    fun c hc => ⟨isBlank_of_isAtomChar (t.isAtomChar_stem c hc), ne_of_isAtomChar (t.isAtomChar_stem c hc)⟩
  have hdigits := t.isPositional.readDigits_append hend
  obtain ⟨d, ds, hds, hd⟩ := t.exists_cons_stem
  change Number.readDigits t.stem = _ at hdigits
  rw [hds] at hchars hdigits ⊢
  rw [numberOf?_eq_ofText (List.cons_ne_nil d ds) hchars, Number.ofText,
    Number.ofLiteral_of_isDigit hd (Number.readSign_of_isDigit hd ds) hdigits t.whole_ne_nil]
  rfl

/-- With both signs it is the difference or the sum of a zero and the
exponent. -/
theorem levels_both {s e : Sign} (hs : t.sign = some s) (he : t.exponentSign = some e) :
    ∃ x, levels ctx f (n + 3) t.text = pure (.number x) ∧ SameNumber x (e.apply (numberOf t.exponent)) := by
  obtain ⟨x, hx, hsame⟩ := e.apply_operator s.apply_zero (numberOf t.exponent)
  refine ⟨x, ?_, hsame⟩
  have hleft : levels ctx f (n + 2) (s.char :: t.stem) = pure (.number (s.apply 0.0)) := by
    have hzero : numberOf t.stem = 0.0 := by
      rw [numberOf, numberOf?_stem]
      rfl
    have hatom := t.isAtomChar_stem
    obtain ⟨d, ds, hds, hd⟩ := t.exists_cons_stem
    rw [hds] at hzero hatom ⊢
    rw [levels_sign_atom f n s hd hatom, hzero]
  have hright : levels ctx f (n + 2) t.exponent = pure (.number (numberOf t.exponent)) := by
    obtain ⟨d, ds, hds⟩ := List.exists_cons_of_ne_nil t.exponent_ne_nil
    have hatom := t.isAtomChar_exponent
    have hd := t.isDigit_exponent
    rw [hds] at hatom hd ⊢
    exact levels_atom f (n + 1) (hd d List.mem_cons_self) hatom
  have hshape : Shape.ofExpr t.text = .chain ⟨s.char :: t.stem, [(e.operator, t.exponent)]⟩ := by
    have hmark : ExposesOnly (fun c => Comparison.isMark c = false) t.unsigned :=
      .of_forall fun c hc => t.isMark_text c (List.mem_append_right _ hc)
    have htext : t.text = s.char :: t.unsigned := by
      rw [text, hs]
      rfl
    have hchain := t.ofExpr?_of_some hs he
    rw [htext] at hchain ⊢
    rw [Shape.ofExpr_sign s hmark, hchain]
  rw [levels, trim_text, hshape, Scope.shape_binary]
  dsimp only
  rw [hleft, hright]
  simp only [pure_bind, Value.toNumber, hx]
  rfl

end Scientific

/-- A literal in scientific notation is one number, as long as not both the
literal and its exponent have a sign: no operator is found in it, and its value
is the number it denotes. With both signs it is split at the second one, and but
for the sign of a zero its value is the exponent with its sign. -/
theorem evaluate_scientific (ctx : Context) (t : Scientific) :
    (t.sign = none ∨ t.exponentSign = none → Chain.ofExpr? t.text = .ok none ∧
      evaluate ctx (String.ofList (formulaMark :: t.text)) = .ok (.number t.number)) ∧
    ∀ s e, t.sign = some s → t.exponentSign = some e →
      Chain.ofExpr? t.text = .ok (some ⟨s.char :: t.stem, [(e.operator, t.exponent)]⟩) ∧
      ∃ x, evaluate ctx (String.ofList (formulaMark :: t.text)) = .ok (.number x) ∧
        SameNumber x (e.apply (numberOf t.exponent)) := by
  -- the value does not hang on any cell
  have hvalue : ∀ x, levels ctx (cellFormula ctx ctx.options.maxDepth []) levelLimit t.text = pure (.number x) →
      evaluate ctx (String.ofList (formulaMark :: t.text)) = .ok (.number x) := by
    intro x hx
    refine evaluate_eq_ok.2 ⟨∅, ?_⟩
    rw [String.toList_ofList, t.exprOf_text, hx]
    rfl
  refine ⟨fun hone => ⟨t.ofExpr?_of_none hone, hvalue _ ?_⟩, fun s e hs he => ⟨t.ofExpr?_of_some hs he, ?_⟩⟩
  · cases hs : t.sign with
    | none =>
      have hnumber : t.number = numberOf t.text := by simp [Scientific.number, hs]
      rw [hnumber]
      exact t.levels_unsigned _ 127 hs
    | some s => exact t.levels_signed _ 126 hs (hone.resolve_left (by rw [hs]; nofun))
  · obtain ⟨x, hx, hsame⟩ := t.levels_both (cellFormula ctx ctx.options.maxDepth []) 125 hs he
    exact ⟨x, hvalue x hx, hsame⟩

/-- A small literal with both signs. -/
def Scientific.small : Scientific where
  sign := some .minus
  whole := ['1']
  fraction := []
  exponentSign := some .minus
  exponent := ['5']
  whole_ne_nil := List.cons_ne_nil _ _
  exponent_ne_nil := List.cons_ne_nil _ _
  isDigit_mantissa := List.forall_mem_singleton.2 rfl
  isDigit_exponent := List.forall_mem_singleton.2 rfl

theorem evaluate_scientific_small :
    Chain.ofExpr? "-1E-5".toList = .ok (some ⟨['-', '1', 'E'], [(.subtract, ['5'])]⟩) ∧
      ∃ x, evaluate linked "=-1E-5" = .ok (.number x) ∧ SameNumber x (-numberOf ['5']) := by
  have htext : Scientific.small.text = "-1E-5".toList := by decide +kernel
  have hformula : String.ofList (formulaMark :: "-1E-5".toList) = "=-1E-5" := by decide +kernel
  have hboth := (evaluate_scientific linked Scientific.small).2 .minus .minus rfl rfl
  rw [htext, hformula] at hboth
  exact hboth

/-- So its value is not the number it denotes. -/
theorem evaluate_scientific_differs :
    Chain.ofExpr? Scientific.small.text ≠ .ok none ∧
      ∃ x, evaluate linked "=-1E-5" = .ok (.number x) ∧ ¬ SameNumber x (numberOf Scientific.small.text) := by
  have hcut : Chain.ofExpr? Scientific.small.text = .ok (some ⟨['-', '1', 'E'], [(.subtract, ['5'])]⟩) := by rfl
  refine ⟨?_, -0.0 - numberOf ['5'], by rfl, ?_⟩
  · rw [hcut]
    nofun
  · unfold SameNumber IsZero
    decide +kernel

end Spreadsheet.Formula

import Mathlib.Data.List.TakeWhile
import Spreadsheet.Proofs.Address.Name
import Spreadsheet.Proofs.Formula.Balanced

/-
  The shapes of balanced texts.

  Each test of a text comes after those that would have taken it for something
  else: a call is no group, two groups with an operator between them are neither
  a group nor a call, and an operator counts only where it is exposed. A numeral
  or the name of a cell passes every test but the last ones.
-/

namespace Spreadsheet.Formula

open Scan (start)

/-! ## Where splitters find nothing -/

/-- A separator counts only where it is exposed. -/
theorem notCut_of_hidden {separator : Char} {q : Char × Bool} (h : q.2 = true → q.1 ≠ separator) :
    (q.2 && q.1 == separator) = false := by
  cases hexposed : q.2 with
  | false => rfl
  | true => exact beq_false_of_ne (h hexposed)

theorem cutAt_of_hidden {separator : Char} {ms : List (Char × Bool)}
    (h : ∀ q ∈ ms, q.2 = true → q.1 ≠ separator) : cutAt separator ms = [ms.map Prod.fst] := by
  induction ms with
  | nil => rfl
  | cons q ms ih =>
    have hq := notCut_of_hidden (h q List.mem_cons_self)
    rw [cutAt, hq, ih fun r hr => h r (List.mem_cons_of_mem q hr)]
    rfl

theorem cutAt_append_of_hidden {separator : Char} {ms : List (Char × Bool)}
    (h : ∀ q ∈ ms, q.2 = true → q.1 ≠ separator) (ns : List (Char × Bool)) :
    cutAt separator (ms ++ (separator, true) :: ns) = ms.map Prod.fst :: cutAt separator ns := by
  induction ms with
  | nil => simp [cutAt]
  | cons q ms ih =>
    have hq := notCut_of_hidden (h q List.mem_cons_self)
    rw [List.cons_append, cutAt, hq, ih fun r hr => h r (List.mem_cons_of_mem q hr)]
    rfl

/-- A comma behind a text that leaves the scan as it was is where the text is
cut, if the text exposes none itself. -/
theorem cutAt_comma {t : List Char} (hafter : start.after t = start) (ht : ExposesOnly (· ≠ ',') t)
    (rest : List Char) : cutAt ',' (start.mark (t ++ ',' :: rest)) = t :: cutAt ',' (start.mark rest) := by
  have hmark : start.mark (t ++ ',' :: rest) = start.mark t ++ (',', true) :: start.mark rest := by
    rw [Scan.mark_append, hafter]
    rfl
  rw [hmark, cutAt_append_of_hidden ht, Scan.map_fst_mark]

theorem Chain.cut_of_hidden {ms : List (Char × Bool)}
    (h : ∀ q ∈ ms, q.2 = true → Operator.ofChar? q.1 = none) (pending : List Char)
    (ns : List (Char × Bool)) :
    cut pending (ms ++ ns) = cut ((ms.map Prod.fst).reverse ++ pending) ns := by
  induction ms generalizing pending with
  | nil => rfl
  | cons q ms ih =>
    have hq : (if q.2 then Operator.ofChar? q.1 else none) = none := by
      cases hexposed : q.2 with
      | false => rfl
      | true => exact h q List.mem_cons_self hexposed
    rw [List.cons_append, cut, hq, ih fun r hr => h r (List.mem_cons_of_mem q hr)]
    simp

theorem Chain.ofExpr?_of_exposesOnly {e : List Char}
    (h : ExposesOnly (fun c => Operator.ofChar? c = none) e) : ofExpr? e = .ok none := by
  have hcut := cut_of_hidden h [] []
  rw [List.append_nil] at hcut
  unfold ofExpr?
  rw [hcut]
  rfl

theorem Comparison.hidden_of_exposesOnly {e : List Char}
    (h : ExposesOnly (fun c => isMark c = false) e) :
    ∀ q ∈ start.mark e, (!(q.2 && isMark q.1)) = true := by
  intro q hq
  cases hexposed : q.2 with
  | false => rfl
  | true => simp [h q hq hexposed]

theorem Comparison.split?_of_exposesOnly {e : List Char}
    (h : ExposesOnly (fun c => isMark c = false) e) : split? e = none := by
  have hlength : ((start.mark e).takeWhile fun q => !(q.2 && isMark q.1)).length = e.length := by
    rw [List.takeWhile_eq_self_iff.2 (hidden_of_exposesOnly h), Scan.length_mark]
  unfold split?
  dsimp only
  rw [hlength, List.drop_length]
  rfl

theorem Quoted.text?_of_head {e : List Char} (h : e.head? ≠ some quoteMark) : text? e = none := by
  cases e with
  | nil => rfl
  | cons c cs =>
    have hc : c ≠ quoteMark := fun hc => h (by rw [hc]; rfl)
    simp [text?, hc]

theorem group?_of_head {e : List Char} (h : e.head? ≠ some '(') : group? e = none := by
  unfold group?
  split
  · exact absurd rfl h
  · rfl

theorem call?_of_head {e : List Char} (h : e.head?.any Text.isCapital = false) : call? e = none := by
  rw [call?, h]
  rfl

/-! ## Shapes of balanced texts -/

section

variable {l r t : List Char}

theorem trim_append_grouped {cs : List Char} (h : ∀ c ∈ cs.head?, Text.isBlank c = false)
    (t : List Char) : Text.trim (cs ++ grouped t) = cs ++ grouped t := by
  refine Text.trim_eq_self (fun c hc => ?_) (fun c hc => ?_)
  · cases cs with
    | nil =>
      cases hc
      rfl
    | cons d ds => exact h c hc
  · have hlast : (cs ++ grouped t).getLast? = some ')' := by
      rw [grouped, ← List.cons_append, ← List.append_assoc, List.getLast?_concat]
    rw [hlast] at hc
    cases hc
    rfl

theorem trim_grouped (t : List Char) : Text.trim (grouped t) = grouped t :=
  @trim_append_grouped [] (fun _ hc => by cases hc) t

theorem group?_grouped (ht : Balanced t) : group? (grouped t) = some t := by
  have hclosing : closing 0 false (t ++ [')']) = some (t, []) := by
    rw [ht.closing, closing_close_zero]
    simp
  rw [grouped, group?, hclosing]

theorem group?_grouped_append (hl : Balanced l) {rest : List Char} (hrest : rest ≠ []) :
    group? (grouped l ++ rest) = none := by
  have hclosing : closing 0 false (l ++ [')'] ++ rest) = some (l, rest) := by
    rw [List.append_assoc, hl.closing, List.singleton_append, closing_close_zero]
    simp
  rw [grouped, List.cons_append, group?, hclosing]
  cases rest with
  | nil => exact absurd rfl hrest
  | cons c cs => rfl

theorem Shape.ofExpr_literal (text : List Char) : ofExpr (Quoted.literal text) = .literal text := by
  have hne : (Quoted.literal text).isEmpty = false := rfl
  unfold ofExpr
  rw [hne, Quoted.text?_literal]
  rfl

theorem Shape.ofExpr_grouped (ht : Balanced t) : ofExpr (grouped t) = .group (Text.trim t) := by
  have hne : (grouped t).isEmpty = false := rfl
  unfold ofExpr
  rw [hne, Quoted.text?_of_head (by simp [grouped, quoteMark]), call?_of_head rfl, group?_grouped ht]
  rfl

theorem Shape.ofExpr_call {name : List Char} (hname : ∀ c ∈ name, isNameChar c = true)
    (hhead : name.head?.any Text.isCapital = true) (ht : Balanced t) :
    ofExpr (name ++ grouped t) = .call name t := by
  obtain ⟨c, cs, rfl⟩ : ∃ c cs, name = c :: cs := by
    cases name with
    | nil => cases hhead
    | cons c cs => exact ⟨c, cs, rfl⟩
  have hc : c ≠ quoteMark := ne_quoteMark_of_isNameChar (hname c List.mem_cons_self)
  have hcall : call? ((c :: cs) ++ grouped t) = some (c :: cs, t) := by
    have htake : ((c :: cs) ++ grouped t).takeWhile isNameChar = c :: cs := by
      have hparen : (grouped t).takeWhile isNameChar = [] := rfl
      rw [List.takeWhile_append_of_pos hname, hparen, List.append_nil]
    have hdrop : ((c :: cs) ++ grouped t).dropWhile isNameChar = grouped t := by
      rw [List.dropWhile_append_of_pos hname]
      rfl
    unfold call?
    rw [htake, hdrop, group?_grouped ht]
    exact if_pos hhead
  unfold ofExpr
  rw [Quoted.text?_of_head (by simpa using hc), hcall]
  rfl

/-- A text that starts with a group and goes on is no literal, call or group. -/
theorem Shape.ofExpr_grouped_append (hl : Balanced l) {rest : List Char} (hrest : rest ≠ []) :
    ofExpr (grouped l ++ rest) =
      match Comparison.split? (grouped l ++ rest) with
      | some (left, op, right) => .comparison left op right
      | none => match Chain.ofExpr? (grouped l ++ rest) with
        | .error fault => .malformed fault
        | .ok (some c) => .chain c
        | .ok none => Shape.ofAtom (grouped l ++ rest) := by
  have hne : (grouped l ++ rest).isEmpty = false := rfl
  have hquote : (grouped l ++ rest).head? ≠ some quoteMark := by simp [grouped, quoteMark]
  rw [ofExpr, hne, Quoted.text?_of_head hquote, call?_of_head rfl, group?_grouped_append hl hrest]
  cases Comparison.split? (grouped l ++ rest) with
  | none => rfl
  | some p => rfl

theorem mark_grouped_append (hl : Balanced l) (rest : List Char) :
    start.mark (grouped l ++ rest) = start.mark (grouped l) ++ start.mark rest := hl.grouped.mark_append rest

theorem Shape.ofExpr_binary (hl : Balanced l) (hr : Balanced r) (op : Operator) :
    ofExpr (grouped l ++ op.symbol :: grouped r) = .chain ⟨grouped l, [(op, grouped r)]⟩ := by
  have hmark : Comparison.isMark op.symbol = false := by cases op <;> rfl
  have hexposed : start.exposes op.symbol = true := by cases op <;> rfl
  have hchar : Operator.ofChar? op.symbol = some op := by cases op <;> rfl
  have hsplit : Comparison.split? (grouped l ++ op.symbol :: grouped r) = none := by
    refine Comparison.split?_of_exposesOnly (.append hl.grouped (.grouped hl) ?_)
    refine .append (.plain (isPlain_symbol op)) (.of_forall fun c hc => ?_) (.grouped hr)
    rw [List.mem_singleton.1 hc, hmark]
  -- after a parenthesis even a minus is no sign
  have hsign : Chain.isSignAfter (grouped l) op = false := by
    simp [Chain.isSignAfter, grouped, Chain.isMantissa, Text.isDigit]
  have hright : Chain.cut [] (start.mark (grouped r)) = ⟨grouped r, []⟩ := by
    have hhidden : ExposesOnly (fun c => Operator.ofChar? c = none) (grouped r) := .grouped hr
    have hcut := Chain.cut_of_hidden hhidden [] []
    rw [List.append_nil, List.append_nil, Scan.map_fst_mark] at hcut
    rw [hcut, Chain.cut, List.reverse_reverse, trim_grouped]
  have hcut : Chain.cut [] (start.mark (grouped l ++ op.symbol :: grouped r)) =
      ⟨grouped l, [(op, grouped r)]⟩ := by
    have hhidden : ExposesOnly (fun c => Operator.ofChar? c = none) (grouped l) := .grouped hl
    have hnext : start.next op.symbol = start := (isPlain_symbol op).next 0
    rw [mark_grouped_append hl, Chain.cut_of_hidden hhidden, Scan.map_fst_mark,
      List.append_nil, Scan.mark, hexposed, hnext, Chain.cut, if_pos rfl, hchar]
    dsimp only
    rw [List.reverse_reverse, trim_grouped, hsign, hright]
    rfl
  rw [ofExpr_grouped_append hl (by simp), hsplit]
  unfold Chain.ofExpr?
  rw [hcut]
  rfl

theorem Shape.ofExpr_comparison (hl : Balanced l) (op : Comparison) (r : List Char) :
    ofExpr (grouped l ++ (op.symbol ++ grouped r)) = .comparison (grouped l) op (grouped r) := by
  have hsplit : Comparison.split? (grouped l ++ (op.symbol ++ grouped r)) =
      some (grouped l, op, grouped r) := by
    -- the groups hide what they hold, so the first mark is the one between them
    have hbefore : ((start.mark (grouped l ++ (op.symbol ++ grouped r))).takeWhile fun q =>
        !(q.2 && Comparison.isMark q.1)) = start.mark (grouped l) := by
      have hhidden := Comparison.hidden_of_exposesOnly (.grouped hl)
      have hstop : ((start.mark (op.symbol ++ grouped r)).takeWhile fun q =>
          !(q.2 && Comparison.isMark q.1)) = [] := by
        cases op <;> rfl
      rw [mark_grouped_append hl, List.takeWhile_append_of_pos hhidden, hstop, List.append_nil]
    have htext : Comparison.ofText? (op.symbol ++ grouped r) = some (op, grouped r) := by
      cases op <;> rfl
    unfold Comparison.split?
    dsimp only
    rw [hbefore, Scan.length_mark, List.take_left, List.drop_left, htext]
    dsimp only
    rw [trim_grouped, trim_grouped]
    rfl
  rw [ofExpr_grouped_append hl (by cases op <;> simp [Comparison.symbol]), hsplit]

end

/-! ## Shapes of atoms -/

def isAtomChar (c : Char) : Bool := Text.isCapital c || Text.isDigit c || c == '.'

theorem isAtomChar_iff {c : Char} :
    isAtomChar c = true ↔ Text.isCapital c = true ∨ Text.isDigit c = true ∨ c = '.' := by
  simp [isAtomChar, or_assoc]

theorem isNameChar_of_isAtomChar {c : Char} (h : isAtomChar c = true) : isNameChar c = true := by
  rcases isAtomChar_iff.1 h with h | h | rfl
  · simp [isNameChar, h]
  · simp [isNameChar, h]
  · rfl

theorem isBlank_of_isAtomChar {c : Char} (h : isAtomChar c = true) : Text.isBlank c = false := by
  rcases isAtomChar_iff.1 h with h | h | rfl
  · exact Text.isBlank_of_isCapital h
  · exact Text.isBlank_of_isDigit h
  · rfl

theorem trim_of_isAtomChar {e : List Char} (h : ∀ c ∈ e, isAtomChar c = true) : Text.trim e = e :=
  Text.trim_eq_self (fun c hc => isBlank_of_isAtomChar (h c (List.mem_of_mem_head? hc)))
    (fun c hc => isBlank_of_isAtomChar (h c (List.mem_of_mem_getLast? hc)))

theorem isPlain_of_isAtomChar {c : Char} (h : isAtomChar c = true) : IsPlain c := by
  rcases isAtomChar_iff.1 h with h | h | rfl
  · exact isPlain_of_isCapital h
  · exact isPlain_of_isDigit h
  · exact ⟨by decide, by decide, by decide, by decide⟩

theorem isMark_of_isAtomChar {c : Char} (h : isAtomChar c = true) : Comparison.isMark c = false := by
  simp only [Comparison.isMark, Bool.or_eq_false_iff, beq_eq_false_iff_ne]
  refine ⟨⟨?_, ?_⟩, ?_⟩ <;> intro hc <;> subst hc <;> cases h

theorem ofChar?_of_isAtomChar {c : Char} (h : isAtomChar c = true) : Operator.ofChar? c = none := by
  unfold Operator.ofChar?
  split <;> first | cases h | rfl

theorem Shape.ofExpr_atom {e : List Char} (hne : e ≠ []) (he : ∀ c ∈ e, isAtomChar c = true) :
    ofExpr e = ofAtom e := by
  have hempty : e.isEmpty = false := List.isEmpty_eq_false_iff.2 hne
  have hhead : ∀ c ∈ e.head?, IsPlain c := fun c hc => isPlain_of_isAtomChar (he c (List.mem_of_mem_head? hc))
  have hquoted : Quoted.text? e = none := Quoted.text?_of_head fun h => (hhead _ h).quote rfl
  have hgroup : group? e = none := group?_of_head fun h => (hhead _ h).left rfl
  have hcall : call? e = none := by
    have hdrop : e.dropWhile isNameChar = [] :=
      List.dropWhile_eq_nil_iff.2 fun c hc => isNameChar_of_isAtomChar (he c hc)
    unfold call?
    rw [hdrop]
    split <;> rfl
  have hsplit : Comparison.split? e = none :=
    Comparison.split?_of_exposesOnly (.of_forall fun c hc => isMark_of_isAtomChar (he c hc))
  have hchain : Chain.ofExpr? e = .ok none :=
    Chain.ofExpr?_of_exposesOnly (.of_forall fun c hc => ofChar?_of_isAtomChar (he c hc))
  rw [ofExpr, hempty, hquoted, hcall, hgroup, hsplit, hchain]
  rfl

theorem isAtomChar_of_isAddressForm {e : List Char} (h : isAddressForm e = true) :
    ∀ c ∈ e, isAtomChar c = true := by
  obtain ⟨ls, ds, rfl, -, -, hls, hds⟩ := exists_of_isAddressForm h
  intro c hc
  rcases List.mem_append.1 hc with hc | hc
  · exact isAtomChar_iff.2 (Or.inl (hls c hc))
  · exact isAtomChar_iff.2 (Or.inr (Or.inl (hds c hc)))

theorem isRangeForm_of_isAddressForm {e : List Char} (h : isAddressForm e = true) :
    isRangeForm e = false := by
  rw [isRangeForm, beq_iff_eq.1 h]
  rfl

theorem Shape.ofExpr_address {e : List Char} (h : isAddressForm e = true) : ofExpr e = .reference e := by
  have hne : e ≠ [] := by
    intro hnil
    subst hnil
    cases h
  rw [ofExpr_atom hne (isAtomChar_of_isAddressForm h)]
  unfold ofAtom
  rw [isRangeForm_of_isAddressForm h, h]
  rfl

/-- Whether a text is a decimal numeral without a sign: digits, and possibly a
point and more digits. -/
def isNumeral (cs : List Char) : Bool :=
  !(cs.takeWhile Text.isDigit).isEmpty &&
    match cs.dropWhile Text.isDigit with
    | [] => true
    | c :: ds => c == '.' && !ds.isEmpty && ds.all Text.isDigit

theorem exists_of_isNumeral {e : List Char} (h : isNumeral e = true) :
    (∃ d ds, e = d :: ds ∧ Text.isDigit d = true) ∧ ∀ c ∈ e, Text.isDigit c = true ∨ c = '.' := by
  simp only [isNumeral, Bool.and_eq_true, Bool.not_eq_true', List.isEmpty_eq_false_iff] at h
  obtain ⟨hdigits, hrest⟩ := h
  constructor
  · cases e with
    | nil => exact absurd rfl hdigits
    | cons d ds =>
      refine ⟨d, ds, rfl, ?_⟩
      by_contra hd
      simp [hd] at hdigits
  · intro c hc
    rw [← List.takeWhile_append_dropWhile (p := Text.isDigit) (l := e), List.mem_append] at hc
    rcases hc with hc | hc
    · exact Or.inl (List.all_eq_true.1 List.all_takeWhile c hc)
    · cases hdrop : e.dropWhile Text.isDigit with
      | nil =>
        rw [hdrop] at hc
        cases hc
      | cons d ds =>
        rw [hdrop] at hc hrest
        simp only [Bool.and_eq_true, beq_iff_eq, List.all_eq_true] at hrest
        obtain ⟨⟨rfl, -⟩, hall⟩ := hrest
        rcases List.mem_cons.1 hc with rfl | hc
        · exact Or.inr rfl
        · exact Or.inl (hall c hc)

theorem isAtomChar_of_isNumeral {e : List Char} (h : isNumeral e = true) :
    ∀ c ∈ e, isAtomChar c = true := fun c hc =>
  isAtomChar_iff.2 (Or.inr ((exists_of_isNumeral h).2 c hc))

theorem afterAddress?_of_head {e : List Char} (h : e.head?.any Text.isCapital = false) :
    afterAddress? e = none := by
  have hcapitals : e.takeWhile Text.isCapital = [] := by
    cases e with
    | nil => rfl
    | cons c cs => simpa using h
  rw [afterAddress?, hcapitals]
  rfl

theorem isRangeForm_of_head {e : List Char} (h : e.head?.any Text.isCapital = false) :
    isRangeForm e = false := by
  rw [isRangeForm, afterAddress?_of_head h]
  rfl

theorem Shape.ofAtom_of_isDigit {d : Char} (hd : Text.isDigit d = true) (ds : List Char) :
    ofAtom (d :: ds) = .number (numberOf (d :: ds)) := by
  have hhead : (d :: ds).head?.any Text.isCapital = false := Text.isCapital_of_isDigit hd
  have hne : ∀ c : Char, Text.isDigit c = false → d ≠ c := by
    intro c hc hsame
    subst hsame
    rw [hd] at hc
    cases hc
  have hword : ∀ {c : Char} {cs : List Char}, Text.isDigit c = false → d :: ds ≠ c :: cs :=
    fun hc heq => hne _ hc (List.cons.inj heq).1
  unfold ofAtom
  rw [isRangeForm_of_head hhead, isAddressForm, afterAddress?_of_head hhead, if_neg (by decide),
    if_neg (by decide), if_neg (hword (by decide)), if_neg (hword (by decide))]
  split
  · rename_i heq _
    exact absurd (List.cons.inj heq).1 (hne _ (by decide))
  · rename_i heq
    exact absurd (List.cons.inj heq).1 (hne _ (by decide))
  · rfl

theorem Shape.ofExpr_of_isDigit {d : Char} (hd : Text.isDigit d = true) {ds : List Char}
    (hmark : ExposesOnly (fun c => Comparison.isMark c = false) (d :: ds))
    (hchain : Chain.ofExpr? (d :: ds) = .ok none) : ofExpr (d :: ds) = .number (numberOf (d :: ds)) := by
  have hplain : IsPlain d := isPlain_of_isDigit hd
  have hempty : (d :: ds).isEmpty = false := rfl
  have hquoted : Quoted.text? (d :: ds) = none := Quoted.text?_of_head (by simpa using hplain.quote)
  have hcall : call? (d :: ds) = none := call?_of_head (Text.isCapital_of_isDigit hd)
  have hgroup : group? (d :: ds) = none := group?_of_head (by simpa using hplain.left)
  rw [ofExpr, hempty, hquoted, hcall, hgroup, Comparison.split?_of_exposesOnly hmark, hchain]
  exact ofAtom_of_isDigit hd ds

theorem Shape.ofExpr_numeral {e : List Char} (h : isNumeral e = true) :
    ofExpr e = .number (numberOf e) := by
  obtain ⟨⟨d, ds, rfl, hd⟩, -⟩ := exists_of_isNumeral h
  rw [ofExpr_atom (List.cons_ne_nil d ds) (isAtomChar_of_isNumeral h), ofAtom_of_isDigit hd]

/-! ## The expression of a formula -/

theorem Balanced.exprOf {t : List Char} (ht : Balanced t) (hne : t ≠ []) (htrim : Text.trim t = t) :
    exprOf (formulaMark :: t) = t := by
  have hformula : Text.trim (formulaMark :: t) = formulaMark :: t := by
    refine Text.trim_eq_self (fun c hc => ?_) (fun c hc => ?_)
    · cases hc
      decide
    · rw [List.getLast?_cons_of_ne_nil hne, ← htrim] at hc
      exact Text.getLast?_trim hc
  have hcapitals := ht.capitalized []
  rw [List.append_nil] at hcapitals
  unfold Formula.exprOf
  rw [hformula]
  dsimp only
  rw [if_pos rfl, htrim, hcapitals]
  exact List.append_nil t

theorem exprOf_of_isAddressForm {e : List Char} (h : isAddressForm e = true) :
    exprOf (formulaMark :: e) = e := by
  have hne : e ≠ [] := by
    intro hnil
    subst hnil
    cases h
  have hplain : ∀ c ∈ e, IsPlain c := fun c hc => isPlain_of_isAtomChar (isAtomChar_of_isAddressForm h c hc)
  exact (Balanced.of_plain hplain).exprOf hne (trim_of_isAddressForm h)

end Spreadsheet.Formula

import Spreadsheet.Formula.Volatile
import Spreadsheet.Proofs.Formula.Parts
import Spreadsheet.Proofs.Formula.Scan

/-
  Texts that do not call the clock.

  A text is `Quiet` if it names no call of `NOW` outside quotes, as the text of
  a formula that is not volatile does not. The parts that a shape asks for are
  quiet if the whole is (`Quiet.parts`): each begins after a character that no
  name holds, at a place where every quote is closed, so the names called in it
  are called in the whole.
-/

namespace Spreadsheet.Formula

open Scan (start)

/-! ## Names that are called -/

theorem withoutQuoted_append {cs ds : List Char} (h : Closed cs) :
    withoutQuoted none (cs ++ ds) = withoutQuoted none cs ++ withoutQuoted none ds := by
  -- also from inside quotes, as long as the text leads out of them
  have general : ∀ (cs : List Char) (held : Option (List Char)),
      (held.isSome ^^ (start.after cs).quoted) = false →
      withoutQuoted held (cs ++ ds) = withoutQuoted held cs ++ withoutQuoted none ds := by
    intro cs
    induction cs with
    | nil =>
      intro held hheld
      cases held with
      | none => rfl
      | some text => cases hheld
    | cons c cs ih =>
      intro held hheld
      rw [Scan.quoted_after_cons] at hheld
      by_cases hc : c = quoteMark
      · subst hc
        rw [beq_self_eq_true, Bool.true_xor] at hheld
        cases held with
        | none => exact ih (some []) (by simpa using hheld)
        | some text => exact ih none (by simpa using hheld)
      · rw [beq_false_of_ne hc, Bool.false_xor] at hheld
        cases held with
        | none =>
          simp only [List.cons_append, withoutQuoted, if_neg hc]
          rw [ih none hheld]
        | some text =>
          simp only [List.cons_append, withoutQuoted, if_neg hc]
          exact ih (some (c :: text)) hheld
  exact general cs none (by rwa [Option.isSome_none, Bool.false_xor])

theorem withoutQuoted_append_plain {ds : List Char} (hds : ∀ d ∈ ds, d ≠ quoteMark) (cs : List Char) :
    withoutQuoted none (cs ++ ds) = withoutQuoted none cs ++ ds := by
  have plain : ∀ (ds : List Char), (∀ d ∈ ds, d ≠ quoteMark) → ∀ held,
      withoutQuoted held ds = withoutQuoted held [] ++ ds := by
    intro ds
    induction ds with
    | nil =>
      intro _ held
      rw [List.append_nil]
    | cons d ds ih =>
      intro hds held
      have hd : d ≠ quoteMark := hds d List.mem_cons_self
      have ih := ih fun c hc => hds c (List.mem_cons_of_mem d hc)
      cases held with
      | none => simp only [withoutQuoted, if_neg hd, ih none, List.nil_append]
      | some text => simp only [withoutQuoted, if_neg hd, ih (some (d :: text))]; simp
  have general : ∀ (cs : List Char) (held : Option (List Char)),
      withoutQuoted held (cs ++ ds) = withoutQuoted held cs ++ ds := by
    intro cs
    induction cs with
    | nil => exact plain ds hds
    | cons c cs ih =>
      intro held
      cases held <;> simp only [List.cons_append, withoutQuoted] <;> split <;> simp [ih]
  exact general cs none

theorem calledNames_left (word cs ds : List Char) :
    calledNames word cs <+: calledNames word (cs ++ ds) := by
  induction cs generalizing word with
  | nil => exact List.nil_prefix
  | cons c cs ih =>
    simp only [List.cons_append, calledNames]
    split
    · exact List.prefix_cons_inj _ |>.2 (ih [])
    · split
      · exact ih (c :: word)
      · exact ih []

/-- A name that is called after a character no name holds is called. -/
theorem calledNames_right {c : Char} (hc : isNameChar c = false) (word cs ds : List Char) :
    calledNames [] ds <:+ calledNames word (cs ++ c :: ds) := by
  induction cs generalizing word with
  | nil =>
    simp only [List.nil_append, calledNames, hc, Bool.false_eq_true, if_false]
    split
    · exact List.suffix_cons _ _
    · exact List.suffix_refl _
  | cons d cs ih =>
    simp only [List.cons_append, calledNames]
    split
    · exact (ih []).trans (List.suffix_cons _ _)
    · split
      · exact ih (d :: word)
      · exact ih []

/-! ## Quiet texts -/

/-- Whether no call of the clock stands in a text outside quotes. -/
def Quiet (cs : List Char) : Prop :=
  ∀ name ∈ calledNames [] (withoutQuoted none cs), Builtin.ofName? name ≠ some .now

theorem quiet_exprOf {formula : String} (h : isVolatile formula = false) :
    Quiet (exprOf formula.toList) := by
  intro name hname hnow
  simp only [isVolatile, List.any_eq_false] at h
  exact h name hname (by rw [hnow]; rfl)

theorem Quiet.left {cs ds : List Char} (h : Quiet (cs ++ ds)) (hcs : Closed cs) : Quiet cs := by
  intro name hname
  refine h name ?_
  rw [withoutQuoted_append hcs]
  exact (calledNames_left [] _ _).subset hname

theorem Quiet.right {cs ds : List Char} {c : Char} (h : Quiet (cs ++ c :: ds)) (hcs : Closed cs)
    (hc : isNameChar c = false) (hquote : c ≠ quoteMark) : Quiet ds := by
  intro name hname
  refine h name ?_
  rw [withoutQuoted_append hcs, withoutQuoted, if_neg hquote]
  exact (calledNames_right hc [] _ _).subset hname

theorem Quiet.tail {c : Char} {cs : List Char} (h : Quiet (c :: cs)) (hc : isNameChar c = false)
    (hquote : c ≠ quoteMark) : Quiet cs :=
  Quiet.right (show Quiet ([] ++ c :: cs) from h) closed_nil hc hquote

theorem isNameChar_of_isBlank {c : Char} (h : Text.isBlank c = true) : isNameChar c = false := by
  rw [Bool.eq_false_iff]
  intro hc
  simp only [isNameChar, Bool.or_eq_true, beq_iff_eq] at hc
  rcases hc with ((hc | hc) | rfl) | rfl
  · rw [Text.isBlank_of_isCapital hc] at h
    cases h
  · rw [Text.isBlank_of_isDigit hc] at h
    cases h
  · cases h
  · cases h

theorem ne_quoteMark_of_isBlank {c : Char} (h : Text.isBlank c = true) : c ≠ quoteMark := by
  intro hc
  subst hc
  cases h

theorem Quiet.trim {cs : List Char} (h : Quiet cs) : Quiet (Text.trim cs) := by
  have hstart : Quiet (Text.trimStart cs) := by
    induction cs with
    | nil => exact h
    | cons c cs ih =>
      unfold Text.trimStart List.dropWhile
      split
      · rename_i hc
        exact ih (h.tail (isNameChar_of_isBlank hc) (ne_quoteMark_of_isBlank hc))
      · exact h
  intro name hname
  refine hstart name ?_
  rw [← Text.dropEndWhile_append Text.isBlank (Text.trimStart cs), withoutQuoted_append_plain]
  · exact (calledNames_left [] _ _).subset hname
  · intro c hc
    exact ne_quoteMark_of_isBlank
      (List.all_eq_true.1 (List.all_takeWhile (p := Text.isBlank)) c (List.mem_reverse.1 hc))

/-! ## Parts of quiet texts -/

/-- The pieces between exposed separators. `acc` is what the current piece has
so far, and `s` the scan after it. -/
theorem Quiet.cutAt (separator : Char) (hname : isNameChar separator = false)
    (hquote : separator ≠ quoteMark) (cs acc : List Char) (s : Scan)
    (hs : s.quoted = (start.after acc).quoted) (h : Quiet (acc ++ cs)) :
    ∃ piece pieces, cutAt separator (s.mark cs) = piece :: pieces ∧ Quiet (acc ++ piece) ∧
      ∀ p ∈ pieces, Quiet p := by
  induction cs generalizing acc s with
  | nil => exact ⟨[], [], rfl, h, fun _ hp => by cases hp⟩
  | cons c cs ih =>
    rw [Scan.mark, Formula.cutAt]
    split
    · rename_i hcut
      rw [Bool.and_eq_true, beq_iff_eq] at hcut
      -- a cut: what was read is a piece, and the scan starts over behind the separator
      obtain ⟨hexposed, rfl⟩ := hcut
      have hout := Scan.quoted_of_exposes hexposed
      have hclosed : Closed acc := hs.symm.trans hout
      have hnext : (s.next c).quoted = (start.after []).quoted := by
        rw [Scan.quoted_next, hout, beq_false_of_ne hquote]
        rfl
      obtain ⟨piece, pieces, hcs, hpiece, hpieces⟩ := ih [] (s.next c) hnext (h.right hclosed hname hquote)
      refine ⟨[], _, rfl, ?_, ?_⟩
      · rw [List.append_nil]
        exact h.left hclosed
      · rw [hcs]
        intro p hp
        rcases List.mem_cons.1 hp with rfl | hp
        · exact hpiece
        · exact hpieces p hp
    · obtain ⟨piece, pieces, hcs, hpiece, hpieces⟩ :=
        ih (acc ++ [c]) (s.next c) (Scan.quoted_next_snoc hs c) (by simpa using h)
      rw [hcs]
      exact ⟨c :: piece, pieces, rfl, by simpa using hpiece, hpieces⟩

theorem Quiet.arguments {text : List Char} (h : Quiet text) : ∀ arg ∈ arguments text, Quiet arg := by
  intro arg harg
  unfold Formula.arguments at harg
  split at harg
  · cases harg
  · obtain ⟨piece, pieces, hcut, hpiece, hpieces⟩ :=
      Quiet.cutAt ',' (by decide) (by decide) text [] start rfl h
    rw [hcut] at harg
    obtain ⟨p, hp, rfl⟩ := List.mem_map.1 harg
    rcases List.mem_cons.1 hp with rfl | hp
    · exact hpiece.trim
    · exact (hpieces p hp).trim

theorem isNameChar_symbol (op : Operator) : isNameChar op.symbol = false := by cases op <;> decide

/-- The operands of a chain. `pending` is what the current operand has so far,
read backwards, and `s` the scan after it. -/
theorem Quiet.cut (cs pending : List Char) (s : Scan)
    (hs : s.quoted = (start.after pending.reverse).quoted) (h : Quiet (pending.reverse ++ cs)) :
    ∀ operand ∈ (Chain.cut pending (s.mark cs)).operands, Quiet operand := by
  induction cs generalizing pending s with
  | nil =>
    intro operand hoperand
    obtain rfl : operand = Text.trim pending.reverse := by
      simpa [Scan.mark, Chain.cut, Chain.operands] using hoperand
    rw [List.append_nil] at h
    exact h.trim
  | cons c cs ih =>
    rcases Chain.cut_cons pending s c with hlonger | ⟨op, rfl, hexposed, hcut⟩
    · rw [hlonger]
      refine ih (c :: pending) (s.next c) ?_ (by simpa using h)
      rw [List.reverse_cons]
      exact Scan.quoted_next_snoc hs c
    · have hclosed : Closed pending.reverse := hs.symm.trans (Scan.quoted_of_exposes hexposed)
      have hrest := h.right hclosed (isNameChar_symbol op) (by cases op <;> decide)
      rw [hcut]
      intro operand hoperand
      rcases List.mem_cons.1 hoperand with rfl | hoperand
      · exact (h.left hclosed).trim
      · exact ih [] start rfl hrest operand hoperand

theorem Quiet.symbol {cs ds : List Char} {op : Comparison} (h : Quiet (cs ++ (op.symbol ++ ds)))
    (hcs : Closed cs) : Quiet ds := by
  cases op with
  | equal | less | greater => exact h.right hcs (by decide) (by decide)
  | notEqual | lessEqual | greaterEqual =>
    exact (h.right hcs (by decide) (by decide)).tail (by decide) (by decide)

theorem Chain.eq_of_ofExpr? {expr : List Char} {c : Chain} (h : ofExpr? expr = .ok (some c)) :
    c = cut [] (start.mark expr) := by
  unfold ofExpr? at h
  dsimp only at h
  split at h
  · cases h
  · split at h
    · cases h
    · cases h
      rfl

theorem Quiet.parts {e : List Char} (h : Quiet e) : (Shape.ofExpr e).Parts Quiet := by
  have hreads := Shape.reads_ofExpr e
  cases hshape : Shape.ofExpr e with
  | blank | literal | malformed | range | reference | truth | number => trivial
  | call name args =>
    rw [hshape] at hreads
    obtain ⟨rfl, hargs, hname, -⟩ := call?_eq_some hreads
    have hclosed : Closed name := closed_of_forall_ne fun c hc => ne_quoteMark_of_isNameChar (hname c hc)
    exact ((h.right hclosed (by decide) (by decide)).left hargs).arguments
  | group inside =>
    rw [hshape] at hreads
    obtain ⟨text, hgroup, rfl⟩ := hreads
    obtain ⟨rfl, hclosed⟩ := group?_eq_some hgroup
    exact ((h.tail (by decide) (by decide)).left hclosed).trim
  | comparison l op r =>
    rw [hshape] at hreads
    obtain ⟨left, right, rfl, hclosed, rfl, rfl⟩ := Comparison.split?_eq_some hreads
    exact ⟨(h.left hclosed).trim, (h.symbol hclosed).trim⟩
  | chain c =>
    rw [hshape] at hreads
    obtain rfl := Chain.eq_of_ofExpr? hreads
    exact Quiet.cut e [] start rfl h
  | negated operand | affirmed operand =>
    rw [hshape] at hreads
    subst hreads
    exact h.tail (by decide) (by decide)

theorem calledNames_of_name {name : List Char} (hname : ∀ c ∈ name, isNameChar c = true)
    (word rest : List Char) :
    (word.reverse ++ name).dropWhile (!Text.isCapital ·) ∈ calledNames word (name ++ '(' :: rest) := by
  induction name generalizing word with
  | nil => simp [calledNames]
  | cons c name ih =>
    have hc : isNameChar c = true := hname c List.mem_cons_self
    have hparen : c ≠ '(' := by
      intro hc'
      subst hc'
      cases hc
    have ih := ih (fun d hd => hname d (List.mem_cons_of_mem c hd)) (c :: word)
    simp only [List.cons_append, calledNames, if_neg hparen, hc, if_true]
    simpa using ih

theorem Quiet.ne_now {e name args : List Char} (h : Quiet e)
    (hshape : Shape.ofExpr e = .call name args) : Builtin.ofName? name ≠ some .now := by
  have hreads := Shape.reads_ofExpr e
  rw [hshape] at hreads
  obtain ⟨rfl, -, hname, hhead⟩ := call?_eq_some hreads
  have hplain : ∀ c ∈ name, c ≠ quoteMark := fun c hc => ne_quoteMark_of_isNameChar (hname c hc)
  have hwithout : withoutQuoted none (name ++ '(' :: (args ++ [')'])) =
      name ++ '(' :: withoutQuoted none (args ++ [')']) := by
    rw [withoutQuoted_append (closed_of_forall_ne hplain),
      ← List.nil_append name, withoutQuoted_append_plain hplain]
    rfl
  have hcalled := calledNames_of_name hname [] (withoutQuoted none (args ++ [')']))
  refine h name ?_
  rw [hwithout]
  cases name with
  | nil => simp at hhead
  | cons c name =>
    simp only [List.head?_cons, Option.any_some] at hhead
    simpa [hhead] using hcalled

end Spreadsheet.Formula

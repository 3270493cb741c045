import Mathlib.Algebra.Group.Nat.Even
import Spreadsheet.Proofs.Formula.Shapes
import Spreadsheet.Proofs.Text.Padding

/-
  The pieces that a text is cut into.

  A chain is cut at its operators and an argument text at its commas, and blanks
  around a piece are dropped. Cutting a chain loses nothing else, and leaves
  nothing to cut: an operand by itself is scanned as it is scanned where it
  stands, since every cut is made where all quotes and parentheses are closed
  (`Chain.ofExpr?_interleaved`). Cutting arguments that were joined by commas gives
  the arguments back (`arguments_interleaved`); for this each of them has to
  close its quotes and, outside quotes, as many parentheses as it opens.
-/

namespace Spreadsheet.Formula

open Scan (start)

/-- Whether a text consists of the given pieces, a first one and then each after
its separator, with any blanks around the pieces. -/
inductive Interleaved : List Char → List (Char × List Char) → List Char → Prop
  | last {piece text : List Char} : Text.IsPadded piece text → Interleaved piece [] text
  | link {piece text next text' : List Char} {separator : Char} {pieces : List (Char × List Char)} :
      Text.IsPadded piece text → Interleaved next pieces text' →
      Interleaved piece ((separator, next) :: pieces) (text ++ separator :: text')

theorem isPlain_of_isBlank {c : Char} (h : Text.isBlank c = true) : IsPlain c := by
  refine ⟨?_, ?_, ?_, Text.upperChar_of_isBlank h⟩ <;> intro hc <;> subst hc <;> cases h

theorem balanced_of_blank {cs : List Char} (h : ∀ c ∈ cs, Text.isBlank c = true) : Balanced cs :=
  .of_plain fun c hc => isPlain_of_isBlank (h c hc)

theorem ofChar?_of_isBlank {c : Char} (h : Text.isBlank c = true) : Operator.ofChar? c = none := by
  unfold Operator.ofChar?
  split <;> first | cases h | rfl

/-! ## Chains -/

namespace Chain

/-- Whether a text exposes no operator but signs. -/
def Uncut (text : List Char) : Prop := (cut [] (start.mark text)).links = []

theorem ofExpr?_eq_none_iff {e : List Char} : ofExpr? e = .ok none ↔ Uncut e := by
  unfold ofExpr? Uncut
  dsimp only
  cases hlinks : (cut [] (start.mark e)).links with
  | nil => simp
  | cons link links =>
    simp only [List.isEmpty_cons, Bool.false_eq_true, if_false, reduceCtorEq, iff_false]
    split <;> simp

theorem missing?_eq_none_iff {expr : String} {first : List Char} {links : List (Operator × List Char)} :
    missing? expr first links = none ↔ ∀ operand ∈ first :: links.map Prod.snd, operand ≠ [] := by
  induction links generalizing first with
  | nil => cases first <;> simp [missing?]
  | cons link links ih =>
    obtain ⟨op, next⟩ := link
    cases first with
    | nil => simp [missing?]
    | cons c cs =>
      simp only [missing?, List.isEmpty_cons, Bool.false_eq_true, if_false, ih]
      simp

/-- Blanks in front of an operand in progress make no difference. `before` is
read backwards too. -/
theorem cut_append_blank {before : List Char} (h : ∀ c ∈ before, Text.isBlank c = true)
    (pending : List Char) (ms : List (Char × Bool)) : cut (pending ++ before) ms = cut pending ms := by
  have htrim : ∀ pending : List Char,
      Text.trim (pending ++ before).reverse = Text.trim pending.reverse := by
    intro pending
    rw [List.reverse_append, Text.trim_append_of_blank fun c hc => h c (List.mem_reverse.1 hc)]
  induction ms generalizing pending with
  | nil => rw [cut, cut, htrim]
  | cons q ms ih =>
    have hlonger := ih (q.1 :: pending)
    rw [List.cons_append] at hlonger
    rw [cut, cut, htrim, hlonger]

/-- What is cut nowhere is cut nowhere if it goes on later. -/
theorem links_of_append {pending : List Char} {ms ns : List (Char × Bool)}
    (h : (cut pending (ms ++ ns)).links = []) : (cut pending ms).links = [] := by
  induction ms generalizing pending with
  | nil => rfl
  | cons q ms ih =>
    rw [List.cons_append, cut] at h
    rw [cut]
    split
    · rename_i hop
      rw [hop] at h
      exact ih h
    · rename_i op hop
      rw [hop] at h
      dsimp only at h ⊢
      split
      · rename_i hsign
        rw [if_pos hsign] at h
        exact ih h
      · rename_i hsign
        rw [if_neg hsign] at h
        cases h

theorem Uncut.trim {text : List Char} (h : Uncut text) : Uncut (Text.trim text) := by
  obtain ⟨before, after, htext, hbefore, -⟩ := Text.isPadded_trim text
  have hhidden : ExposesOnly (fun c => Operator.ofChar? c = none) before :=
    .of_forall fun c hc => ofChar?_of_isBlank (hbefore c hc)
  have hcut : cut [] (start.mark text) = cut [] (start.mark (Text.trim text ++ after)) := by
    have hblank := cut_append_blank (fun c hc => hbefore c (List.mem_reverse.1 hc)) []
      (start.mark (Text.trim text ++ after))
    conv_lhs => rw [htext]
    rw [(balanced_of_blank hbefore).mark_append, cut_of_hidden hhidden, Scan.map_fst_mark, List.append_nil]
    rwa [List.nil_append] at hblank
  rw [Uncut, hcut, Scan.mark_append] at h
  exact links_of_append h

/-- The separators and operands after the first one. -/
def pieces (c : Chain) : List (Char × List Char) := c.links.map fun (op, operand) => (op.symbol, operand)

/-- What was read without a cut is cut nowhere by itself. -/
theorem uncut_of_pending {pending : List Char} {s : Scan}
    (h : ∀ ds, cut [] (start.mark (pending.reverse ++ ds)) = cut pending (s.mark ds)) :
    Uncut pending.reverse := by
  have hwhole := h []
  rw [List.append_nil] at hwhole
  rw [Uncut, hwhole]
  rfl

/-- A cut text is its operands in a row, and none of them is cut by itself. The
scan is at `s` and has read `pending` so far, backwards, without a cut. -/
theorem interleaved_cut (cs pending : List Char) (s : Scan)
    (hpending : ∀ ds, cut [] (start.mark (pending.reverse ++ ds)) = cut pending (s.mark ds)) :
    Interleaved (cut pending (s.mark cs)).first (cut pending (s.mark cs)).pieces (pending.reverse ++ cs) ∧
      ∀ operand ∈ (cut pending (s.mark cs)).operands, Text.trim operand = operand ∧ Uncut operand := by
  induction cs generalizing pending s with
  | nil =>
    rw [List.append_nil]
    refine ⟨.last (Text.isPadded_trim _), fun operand hoperand => ?_⟩
    obtain rfl := List.mem_singleton.1 hoperand
    exact ⟨Text.trim_trim _, (uncut_of_pending hpending).trim⟩
  | cons c cs ih =>
    rcases cut_cons pending s c with hlonger | ⟨op, rfl, -, hcut⟩
    · have hnext := ih (c :: pending) (s.next c) fun ds => by
        rw [List.reverse_cons, List.append_assoc, List.singleton_append, hpending, hlonger]
      rw [hlonger]
      simpa using hnext
    · obtain ⟨hrest, hoperands⟩ := ih [] start fun ds => rfl
      rw [hcut]
      refine ⟨.link (Text.isPadded_trim _) hrest, fun operand hoperand => ?_⟩
      rcases List.mem_cons.1 hoperand with rfl | hoperand
      · exact ⟨Text.trim_trim _, (uncut_of_pending hpending).trim⟩
      · exact hoperands operand hoperand

/-- An expression that is a chain consists of the operands of the chain with its
operators between them and blanks around them. No operand is empty, and none is
a chain itself. -/
theorem ofExpr?_interleaved {e : List Char} {c : Chain} (h : ofExpr? e = .ok (some c)) :
    c.operands.length = c.operators.length + 1 ∧ c.operators ≠ [] ∧ Interleaved c.first c.pieces e ∧
      ∀ operand ∈ c.operands, Text.trim operand = operand ∧ operand ≠ [] ∧ ofExpr? operand = .ok none := by
  obtain ⟨hinterleaved, hoperands⟩ := interleaved_cut e [] start fun _ => rfl
  unfold ofExpr? at h
  dsimp only at h
  split at h
  · cases h
  · rename_i hlinks
    split at h
    · cases h
    · rename_i hmissing
      cases h
      have hne := missing?_eq_none_iff.1 hmissing
      refine ⟨by simp [operands, operators], by simpa [operators] using hlinks, hinterleaved, ?_⟩
      intro operand hoperand
      obtain ⟨htrim, huncut⟩ := hoperands operand hoperand
      exact ⟨htrim, hne operand hoperand, ofExpr?_eq_none_iff.2 huncut⟩

/-- Signs and hidden operators stay in their operands, also behind a parenthesis
that closes nothing. -/
theorem ofExpr?_interleaved_signs :
    ∃ c : Chain, ofExpr? "-A1 * 1E-5+\")-\" ^(2-3))-4".toList = .ok (some c) ∧
      c.operands = ["-A1".toList, "1E-5".toList, "\")-\"".toList, "(2-3))-4".toList] ∧
      c.operands.length = c.operators.length + 1 ∧ c.operators ≠ [] ∧
      Interleaved c.first c.pieces "-A1 * 1E-5+\")-\" ^(2-3))-4".toList ∧
      ∀ operand ∈ c.operands, Text.trim operand = operand ∧ operand ≠ [] ∧ ofExpr? operand = .ok none := by
  have hchain : ofExpr? "-A1 * 1E-5+\")-\" ^(2-3))-4".toList =
      .ok (some ⟨"-A1".toList, [(.multiply, "1E-5".toList), (.add, "\")-\"".toList),
        (.power, "(2-3))-4".toList)]⟩) := by decide +kernel
  exact ⟨_, hchain, rfl, ofExpr?_interleaved hchain⟩

end Chain

/-! ## Arguments -/

/-- The characters of a text outside quotes, without the quotes. `quoted` says
whether the text starts inside quotes. -/
def outsideQuotes (quoted : Bool) : List Char → List Char
  | [] => []
  | c :: cs =>
    if c = quoteMark then outsideQuotes (!quoted) cs
    else if quoted then outsideQuotes quoted cs
    else c :: outsideQuotes quoted cs

/-- How many more parentheses a text opens than it closes, outside quotes. -/
def nesting (t : List Char) : Int :=
  ((outsideQuotes false t).count '(' : Int) - (outsideQuotes false t).count ')'

/-- A scan is outside quotes after an even number of them. -/
theorem closed_iff_even {t : List Char} : Closed t ↔ Even (t.count quoteMark) := by
  induction t with
  | nil => simp [closed_nil]
  | cons c cs ih =>
    by_cases hquote : c = quoteMark
    · subst hquote
      rw [List.count_cons_self, Nat.even_add_one, ← ih, Closed, Scan.quoted_after_cons, Closed]
      simp
    · rw [closed_cons hquote, ih, List.count_cons_of_ne hquote]

/-- Its depth is the number of parentheses that are open outside quotes. -/
theorem Scan.depth_after (s : Scan) (cs : List Char) :
    (s.after cs).depth =
      s.depth + (outsideQuotes s.quoted cs).count '(' - (outsideQuotes s.quoted cs).count ')' := by
  induction cs generalizing s with
  | nil => simp [after, outsideQuotes]
  | cons c cs ih =>
    obtain ⟨depth, quoted⟩ := s
    rw [after_cons, ih]
    by_cases hquote : c = quoteMark
    · simp [Scan.next, outsideQuotes, hquote]
    · cases quoted with
      | true => simp [Scan.next, outsideQuotes, hquote]
      | false =>
        by_cases hopen : c = '('
        · simp [Scan.next, outsideQuotes, hopen, quoteMark]
          omega
        · by_cases hclose : c = ')'
          · simp [Scan.next, outsideQuotes, hclose, quoteMark]
            omega
          · simp [Scan.next, outsideQuotes, hquote, hopen, hclose]

theorem depth_after_start (t : List Char) : (start.after t).depth = nesting t := by
  rw [Scan.depth_after, nesting]
  simp [start]

/-- Whether a text can stand as an argument: it has no outer blanks, closes its
quotes and, outside quotes, as many parentheses as it opens, and has a comma only
inside quotes or parentheses. -/
structure IsArgument (a : List Char) : Prop where
  trimmed : Text.trim a = a
  quotes : Even (a.count quoteMark)
  parentheses : nesting a = 0
  commas : ∀ n < a.length, a[n]? = some ',' → Even ((a.take n).count quoteMark) → nesting (a.take n) ≠ 0

instance (a : List Char) : Decidable (IsArgument a) :=
  decidable_of_iff (Text.trim a = a ∧ Even (a.count quoteMark) ∧ nesting a = 0 ∧
      ∀ n < a.length, a[n]? = some ',' → Even ((a.take n).count quoteMark) → nesting (a.take n) ≠ 0)
    ⟨fun ⟨htrimmed, hquotes, hparentheses, hcommas⟩ => ⟨htrimmed, hquotes, hparentheses, hcommas⟩,
      fun h => ⟨h.trimmed, h.quotes, h.parentheses, h.commas⟩⟩

theorem Scan.exists_of_mem_mark {s : Scan} {cs : List Char} {q : Char × Bool} (h : q ∈ s.mark cs) :
    ∃ n < cs.length, cs[n]? = some q.1 ∧ q.2 = (s.after (cs.take n)).exposes q.1 := by
  induction cs generalizing s with
  | nil => cases h
  | cons c cs ih =>
    rcases List.mem_cons.1 h with rfl | h
    · exact ⟨0, Nat.zero_lt_succ _, rfl, rfl⟩
    · obtain ⟨n, hn, hchar, hexposed⟩ := ih h
      exact ⟨n + 1, Nat.succ_lt_succ hn, hchar, hexposed⟩

theorem ne_comma_of_blank {cs : List Char} (h : ∀ c ∈ cs, Text.isBlank c = true) : ∀ c ∈ cs, c ≠ ',' := by
  rintro _ hc rfl
  cases h ',' hc

namespace IsArgument

variable {a text : List Char} (h : IsArgument a)

include h

theorem after : start.after a = start := by
  have hdepth : (start.after a).depth = 0 := (depth_after_start a).trans h.parentheses
  have hquoted : (start.after a).quoted = false := closed_iff_even.2 h.quotes
  generalize start.after a = s at hdepth hquoted
  obtain ⟨depth, quoted⟩ := s
  cases hdepth
  cases hquoted
  rfl

/-- An argument exposes no comma. -/
theorem hidden : ExposesOnly (· ≠ ',') a := by
  intro q hq hexposed hcomma
  obtain ⟨n, hn, hchar, heq⟩ := Scan.exists_of_mem_mark hq
  rw [hexposed, eq_comm, Scan.exposes] at heq
  simp only [Bool.and_eq_true, Bool.not_eq_true', beq_iff_eq] at heq
  obtain ⟨⟨⟨⟨hquoted, hdepth⟩, -⟩, -⟩, -⟩ := heq
  refine h.commas n hn (hcomma ▸ hchar) (closed_iff_even.1 hquoted) ?_
  rwa [← depth_after_start]

theorem padded (htext : Text.IsPadded a text) : start.after text = start ∧ ExposesOnly (· ≠ ',') text := by
  obtain ⟨front, back, rfl, hfront, hback⟩ := htext
  have hstart : start.after front = start := (balanced_of_blank hfront).after 0
  constructor
  · rw [Scan.after_append, hstart, Scan.after_append, h.after]
    exact (balanced_of_blank hback).after 0
  · have hrest : ExposesOnly (· ≠ ',') (a ++ back) :=
      .append_of_after h.after h.hidden (.of_forall (ne_comma_of_blank hback))
    exact .append_of_after hstart (.of_forall (ne_comma_of_blank hfront)) hrest

end IsArgument

theorem cutAt_interleaved {first text : List Char} {rest : List (List Char)}
    (htext : Interleaved first (rest.map (',', ·)) text) (hargs : ∀ a ∈ first :: rest, IsArgument a) :
    (cutAt ',' (start.mark text)).map Text.trim = first :: rest := by
  induction rest generalizing first text with
  | nil =>
    obtain ⟨hpadded⟩ := htext
    have hfirst := hargs first List.mem_cons_self
    rw [cutAt_of_hidden (hfirst.padded hpadded).2, Scan.map_fst_mark, List.map_singleton, hpadded.trim_eq,
      hfirst.trimmed]
  | cons next rest ih =>
    cases htext with
    | @link _ text _ text' _ _ hpadded hrest =>
      have hfirst := hargs first List.mem_cons_self
      obtain ⟨hafter, hhidden⟩ := hfirst.padded hpadded
      rw [cutAt_comma hafter hhidden, List.map_cons, hpadded.trim_eq, hfirst.trimmed,
        ih hrest fun a ha => hargs a (List.mem_cons_of_mem first ha)]

/-- Arguments joined by commas, with any blanks around each of them, are found
again in the text. One empty argument alone is no argument at all. -/
theorem arguments_interleaved {first text : List Char} {rest : List (List Char)}
    (htext : Interleaved first (rest.map (',', ·)) text) (hargs : ∀ a ∈ first :: rest, IsArgument a)
    (hne : first :: rest ≠ [[]]) : arguments text = first :: rest := by
  have htrim : Text.trim text ≠ [] := by
    -- a blank text is cut nowhere, so nothing would be joined but an empty argument
    intro hnil
    have hhidden : ExposesOnly (· ≠ ',') text := .of_forall (ne_comma_of_blank (Text.trim_eq_nil_iff.1 hnil))
    have hcut := cutAt_of_hidden hhidden
    have hjoined := cutAt_interleaved htext hargs
    rw [hcut, Scan.map_fst_mark, List.map_singleton, hnil] at hjoined
    exact hne hjoined.symm
  rw [arguments, if_neg (by simpa using htrim), cutAt_interleaved htext hargs]

/-- Commas in quotes and parentheses, an unbalanced parenthesis in quotes, and an
empty argument. -/
theorem arguments_interleaved_hidden :
    Interleaved "\"a,(\"".toList (["MAX(B1, 2)".toList, [], ")(".toList].map (',', ·))
        " \"a,(\" ,MAX(B1, 2)\t,, )(".toList ∧
      (∀ a ∈ ["\"a,(\"".toList, "MAX(B1, 2)".toList, [], ")(".toList], IsArgument a) ∧
      arguments " \"a,(\" ,MAX(B1, 2)\t,, )(".toList =
        ["\"a,(\"".toList, "MAX(B1, 2)".toList, [], ")(".toList] := by
  have hliteral : Text.IsPadded "\"a,(\"".toList " \"a,(\" ".toList :=
    ⟨[' '], [' '], rfl, List.forall_mem_singleton.2 rfl, List.forall_mem_singleton.2 rfl⟩
  have hcall : Text.IsPadded "MAX(B1, 2)".toList "MAX(B1, 2)\t".toList :=
    ⟨[], ['\t'], rfl, nofun, List.forall_mem_singleton.2 rfl⟩
  have hempty : Text.IsPadded [] [] := ⟨[], [], rfl, nofun, nofun⟩
  have hlast : Text.IsPadded ")(".toList " )(".toList := ⟨[' '], [], rfl, List.forall_mem_singleton.2 rfl, nofun⟩
  have htext : Interleaved "\"a,(\"".toList (["MAX(B1, 2)".toList, [], ")(".toList].map (',', ·))
      " \"a,(\" ,MAX(B1, 2)\t,, )(".toList := .link hliteral (.link hcall (.link hempty (.last hlast)))
  have hargs : ∀ a ∈ ["\"a,(\"".toList, "MAX(B1, 2)".toList, [], ")(".toList], IsArgument a := by decide
  exact ⟨htext, hargs, arguments_interleaved htext hargs (by decide)⟩

end Spreadsheet.Formula

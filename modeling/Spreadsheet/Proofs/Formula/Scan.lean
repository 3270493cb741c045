import Spreadsheet.Formula.Arithmetic
import Spreadsheet.Formula.Comparison

/-
  What a scan keeps track of, and what the splitters of a text find.

  Whether a scan is inside a text literal depends only on the number of quotes
  so far. A text that is `Closed` has an even number of them, so what follows it
  is read as if it stood alone.
-/

namespace Spreadsheet.Formula

namespace Scan

theorem after_cons (s : Scan) (c : Char) (cs : List Char) : s.after (c :: cs) = (s.next c).after cs :=
  rfl

theorem after_append (s : Scan) (cs ds : List Char) : s.after (cs ++ ds) = (s.after cs).after ds :=
  List.foldl_append

theorem natAbs_depth_next_le (s : Scan) (c : Char) :
    (s.next c).depth.natAbs ≤ s.depth.natAbs + if c = '(' ∨ c = ')' then 1 else 0 := by
  unfold next
  split
  · exact Nat.le_add_right _ _
  · split
    · exact Nat.le_add_right _ _
    · split
      · rename_i hopen
        rw [if_pos (.inl hopen)]
        show (s.depth + 1).natAbs ≤ s.depth.natAbs + 1
        omega
      · split
        · rename_i hclose
          rw [if_pos (.inr hclose)]
          show (s.depth - 1).natAbs ≤ s.depth.natAbs + 1
          omega
        · exact Nat.le_add_right _ _

/-- No more parentheses are open, and none are closed too many, than there are in
the text. -/
theorem natAbs_depth_after_le (s : Scan) (cs : List Char) :
    (s.after cs).depth.natAbs ≤ s.depth.natAbs + cs.countP fun c => c = '(' ∨ c = ')' := by
  induction cs generalizing s with
  | nil => exact Nat.le_refl _
  | cons c cs ih =>
    have hnext := s.natAbs_depth_next_le c
    have hrest := ih (s.next c)
    rw [after_cons, List.countP_cons]
    simp only [decide_eq_true_eq]
    omega

theorem quoted_next (s : Scan) (c : Char) : (s.next c).quoted = (s.quoted ^^ c == quoteMark) := by
  unfold next
  by_cases hc : c = quoteMark
  · simp [hc]
  · have hplain : (s.quoted ^^ c == quoteMark) = s.quoted := by
      rw [beq_false_of_ne hc, Bool.xor_false]
    rw [if_neg hc, hplain]
    split
    · rfl
    · split
      · rfl
      · split <;> rfl

/-- Whether a text ends inside a literal depends on the scan before it only
through whether that was inside one. -/
theorem quoted_after (s : Scan) (cs : List Char) :
    (s.after cs).quoted = (s.quoted ^^ (start.after cs).quoted) := by
  induction cs generalizing s with
  | nil => simp [after, start]
  | cons c cs ih =>
    rw [after_cons, after_cons, ih, ih (start.next c), quoted_next, quoted_next]
    simp [start]

theorem quoted_after_cons (c : Char) (cs : List Char) :
    (start.after (c :: cs)).quoted = (c == quoteMark ^^ (start.after cs).quoted) := by
  rw [after_cons, quoted_after, quoted_next, start, Bool.false_xor]

theorem quoted_next_snoc {s : Scan} {cs : List Char} (h : s.quoted = (start.after cs).quoted) (c : Char) :
    (s.next c).quoted = (start.after (cs ++ [c])).quoted := by
  rw [after_append, quoted_next, h, ← quoted_next]
  rfl

theorem length_mark (s : Scan) (cs : List Char) : (s.mark cs).length = cs.length := by
  rw [← List.length_map (f := Prod.fst), map_fst_mark]

theorem drop_mark (s : Scan) (cs : List Char) (n : Nat) :
    (s.mark cs).drop n = (s.after (cs.take n)).mark (cs.drop n) := by
  by_cases hn : n ≤ cs.length
  · have hlength : (s.mark (cs.take n)).length = n := by
      rw [length_mark, List.length_take]
      omega
    have hsplit := mark_append s (cs.take n) (cs.drop n)
    rw [List.take_append_drop] at hsplit
    rw [hsplit, List.drop_left' hlength]
  · have hlength := length_mark s cs
    rw [List.drop_eq_nil_of_le (by omega), List.drop_eq_nil_of_le (by omega)]
    rfl

theorem next_of_exposes {s : Scan} {c : Char} (h : s.exposes c = true) : s.next c = start := by
  obtain ⟨depth, quoted⟩ := s
  simp only [exposes, Bool.and_eq_true, Bool.not_eq_true', beq_iff_eq, bne_iff_ne] at h
  obtain ⟨⟨⟨⟨rfl, rfl⟩, hquote⟩, hopen⟩, hclose⟩ := h
  simp [next, hquote, hopen, hclose, start]

theorem quoted_of_exposes {s : Scan} {c : Char} (h : s.exposes c = true) : s.quoted = false := by
  simp only [exposes, Bool.and_eq_true, Bool.not_eq_true'] at h
  exact h.1.1.1.1

end Scan

open Scan (start)

/-- Whether a text closes every quote it opens. -/
def Closed (cs : List Char) : Prop := (start.after cs).quoted = false

theorem closed_nil : Closed [] := rfl

theorem closed_cons {c : Char} (hc : c ≠ quoteMark) {cs : List Char} : Closed (c :: cs) ↔ Closed cs := by
  rw [Closed, Closed, Scan.quoted_after_cons, beq_false_of_ne hc, Bool.false_xor]

theorem closed_of_forall_ne {cs : List Char} (h : ∀ c ∈ cs, c ≠ quoteMark) : Closed cs := by
  induction cs with
  | nil => exact closed_nil
  | cons c cs ih =>
    rw [closed_cons (h c List.mem_cons_self)]
    exact ih fun d hd => h d (List.mem_cons_of_mem c hd)

/-! ## Parentheses and calls -/

section

variable (depth : Nat) (quoted : Bool) (cs : List Char)

theorem closing_quote : closing depth quoted (quoteMark :: cs) =
    (closing depth (!quoted) cs).map fun p => (quoteMark :: p.1, p.2) := by
  rw [closing.eq_def]
  rfl

theorem closing_quoted {c : Char} (hc : c ≠ quoteMark) :
    closing depth true (c :: cs) = (closing depth true cs).map fun p => (c :: p.1, p.2) := by
  rw [closing.eq_def]
  dsimp only
  rw [if_neg hc, if_pos rfl]

theorem closing_open : closing depth false ('(' :: cs) =
    (closing (depth + 1) false cs).map fun p => ('(' :: p.1, p.2) := by
  rw [closing.eq_def]
  rfl

theorem closing_close : closing (depth + 1) false (')' :: cs) =
    (closing depth false cs).map fun p => (')' :: p.1, p.2) := by
  rw [closing.eq_def]
  rfl

theorem closing_close_zero : closing 0 false (')' :: cs) = some ([], cs) := by
  rw [closing.eq_def]
  rfl

theorem closing_plain {c : Char} (hc : c ≠ quoteMark) (hopen : c ≠ '(') (hclose : c ≠ ')') :
    closing depth false (c :: cs) = (closing depth false cs).map fun p => (c :: p.1, p.2) := by
  rw [closing.eq_def]
  simp [hc, hopen, hclose]

end

/-- What stands before a closing parenthesis closes what it opens, and is hidden
by the parenthesis that this one closes. -/
theorem closing_eq_some {depth : Nat} {quoted : Bool} {cs inside rest : List Char}
    (h : closing depth quoted cs = some (inside, rest)) :
    cs = inside ++ ')' :: rest ∧ (⟨depth + 1, quoted⟩ : Scan).after inside = ⟨1, false⟩ ∧
      ∀ p ∈ (⟨depth + 1, quoted⟩ : Scan).mark inside, p.2 = false := by
  have hexposes : ∀ (n : Nat) (q : Bool) (c : Char), (⟨n + 1, q⟩ : Scan).exposes c = false := by
    intro n q c
    have hdepth : ((n : Int) + 1 == 0) = false := beq_false_of_ne (by omega)
    simp [Scan.exposes, hdepth]
  induction cs generalizing depth quoted inside with
  | nil => cases h
  | cons c cs ih =>
    -- every step but the last keeps its character and goes on behind it
    have hkeep : ∀ {depth' : Nat} {quoted' : Bool},
        (closing depth' quoted' cs).map (fun p => (c :: p.1, p.2)) = some (inside, rest) →
        (⟨depth + 1, quoted⟩ : Scan).next c = ⟨depth' + 1, quoted'⟩ →
        c :: cs = inside ++ ')' :: rest ∧ (⟨depth + 1, quoted⟩ : Scan).after inside = ⟨1, false⟩ ∧
          ∀ p ∈ (⟨depth + 1, quoted⟩ : Scan).mark inside, p.2 = false := by
      intro depth' quoted' hmap hnext
      obtain ⟨⟨inside', rest'⟩, hclosing, heq⟩ := Option.map_eq_some_iff.1 hmap
      obtain ⟨rfl, rfl⟩ := Prod.mk.inj heq
      obtain ⟨rfl, hafter, hhidden⟩ := ih hclosing
      rw [Scan.after_cons, Scan.mark, hnext]
      exact ⟨rfl, hafter, List.forall_mem_cons.2 ⟨hexposes depth quoted c, hhidden⟩⟩
    by_cases hc : c = quoteMark
    · subst hc
      rw [closing_quote] at h
      exact hkeep h rfl
    · cases quoted with
      | true =>
        rw [closing_quoted _ _ hc] at h
        exact hkeep h (by simp [Scan.next, hc])
      | false =>
        by_cases hopen : c = '('
        · subst hopen
          rw [closing_open] at h
          exact hkeep h rfl
        · by_cases hclose : c = ')'
          · subst hclose
            cases depth with
            | zero =>
              rw [closing_close_zero] at h
              cases h
              exact ⟨rfl, rfl, fun p hp => absurd hp List.not_mem_nil⟩
            | succ depth =>
              rw [closing_close] at h
              exact hkeep h (by simp [Scan.next, quoteMark])
          · rw [closing_plain _ _ hc hopen hclose] at h
            exact hkeep h (by simp [Scan.next, hc, hopen, hclose])

theorem closing_of_group? {cs inside : List Char} (h : group? cs = some inside) :
    cs = '(' :: (inside ++ [')']) ∧ closing 0 false (inside ++ [')']) = some (inside, []) := by
  unfold group? at h
  split at h
  · split at h
    · rename_i hclosing
      cases h
      obtain ⟨rfl, -, -⟩ := closing_eq_some hclosing
      exact ⟨rfl, hclosing⟩
    · cases h
  · cases h

theorem group?_eq_some {cs inside : List Char} (h : group? cs = some inside) :
    cs = '(' :: (inside ++ [')']) ∧ Closed inside := by
  obtain ⟨rfl, hclosing⟩ := closing_of_group? h
  obtain ⟨-, hafter, -⟩ := closing_eq_some hclosing
  have hquoted := Scan.quoted_after ⟨(0 : Nat) + 1, false⟩ inside
  rw [hafter, Bool.false_xor] at hquoted
  exact ⟨rfl, hquoted.symm⟩

theorem hidden_of_group? {cs inside : List Char} (h : group? cs = some inside) :
    ∀ p ∈ start.mark cs, p.2 = false := by
  obtain ⟨rfl, hclosing⟩ := closing_of_group? h
  obtain ⟨-, -, hinside⟩ := closing_eq_some hclosing
  have hopen : start.next '(' = ⟨(0 : Nat) + 1, false⟩ := rfl
  intro p hp
  rw [Scan.mark, hopen, Scan.mark_append, List.mem_cons, List.mem_append] at hp
  rcases hp with rfl | hp | hp
  · rfl
  · exact hinside p hp
  · rw [List.mem_singleton.1 hp]
    simp [Scan.exposes]

theorem ne_quoteMark_of_isNameChar {c : Char} (h : isNameChar c = true) : c ≠ quoteMark := by
  intro hc
  subst hc
  cases h

theorem call?_eq_some {cs name inside : List Char} (h : call? cs = some (name, inside)) :
    cs = name ++ '(' :: (inside ++ [')']) ∧ Closed inside ∧ (∀ c ∈ name, isNameChar c = true) ∧
      name.head?.any Text.isCapital = true := by
  unfold call? at h
  split at h
  · rename_i hhead
    obtain ⟨inside', hgroup, heq⟩ := Option.map_eq_some_iff.1 h
    obtain ⟨rfl, rfl⟩ := Prod.mk.inj heq
    obtain ⟨hdrop, hclosed⟩ := group?_eq_some hgroup
    refine ⟨?_, hclosed, fun c hc => ?_, ?_⟩
    · rw [← hdrop, List.takeWhile_append_dropWhile]
    · exact (List.all_eq_true.1 (List.all_takeWhile) c hc)
    · cases cs with
      | nil => simp at hhead
      | cons c cs =>
        simp only [List.head?_cons, Option.any_some] at hhead
        have hname : isNameChar c = true := by simp [isNameChar, hhead]
        simp [hname, hhead]
  · cases h

/-! ## Comparisons -/

namespace Comparison

theorem eq_of_ofText? {cs rest : List Char} {op : Comparison} (h : ofText? cs = some (op, rest)) :
    cs = op.symbol ++ rest := by
  unfold ofText? at h
  split at h <;> cases h <;> rfl

theorem split?_eq_some {expr l r : List Char} {op : Comparison} (h : split? expr = some (l, op, r)) :
    ∃ left right, expr = left ++ (op.symbol ++ right) ∧ Closed left ∧ l = Text.trim left ∧
      r = Text.trim right := by
  unfold split? at h
  dsimp only at h
  generalize hn : ((start.mark expr).takeWhile fun p => !(p.2 && isMark p.1)).length = n at h
  split at h
  · rename_i op' right hop
    have hdrop := eq_of_ofText? hop
    split at h
    · cases h
    · cases h
      refine ⟨expr.take n, right, ?_, ?_, rfl, rfl⟩
      · rw [← hdrop, List.take_append_drop]
      -- the first character of the operator is exposed
      · obtain ⟨c, rest, hc⟩ : ∃ c rest, expr.drop n = c :: rest := by
          rw [hdrop]
          cases op <;> exact ⟨_, _, rfl⟩
        have hsplit := List.takeWhile_append_dropWhile (p := fun p : Char × Bool => !(p.2 && isMark p.1))
          (l := start.mark expr)
        have hmark := Scan.drop_mark start expr n
        rw [hc, ← hsplit, ← hn, List.drop_left, hn] at hmark
        have hhead := List.head?_dropWhile_not (fun p : Char × Bool => !(p.2 && isMark p.1))
          (start.mark expr)
        rw [hmark, Scan.mark] at hhead
        simp only [List.head?_cons, Bool.not_eq_false', Bool.and_eq_true] at hhead
        exact Scan.quoted_of_exposes hhead.1
  · cases h

end Comparison

/-! ## Chains -/

theorem Operator.symbol_of_ofChar? {c : Char} {op : Operator} (h : ofChar? c = some op) : op.symbol = c := by
  unfold ofChar? at h
  split at h <;> cases h <;> rfl

/-- A character is added to the operand in progress, or it is an exposed operator
that ends this operand, and what follows is cut by itself. -/
theorem Chain.cut_cons (pending : List Char) (s : Scan) (c : Char) :
    (∀ cs, cut pending (s.mark (c :: cs)) = cut (c :: pending) ((s.next c).mark cs)) ∨
      ∃ op : Operator, op.symbol = c ∧ s.exposes c = true ∧ ∀ cs, cut pending (s.mark (c :: cs)) =
        ⟨Text.trim pending.reverse, (op, (cut [] (start.mark cs)).first) :: (cut [] (start.mark cs)).links⟩ := by
  cases hexposed : s.exposes c with
  | false =>
    left
    intro cs
    rw [Scan.mark, cut, hexposed]
    rfl
  | true =>
    cases hop : Operator.ofChar? c with
    | none =>
      left
      intro cs
      rw [Scan.mark, cut, if_pos hexposed, hop]
    | some op =>
      cases hsign : isSignAfter (Text.trim pending.reverse) op with
      | true =>
        left
        intro cs
        rw [Scan.mark, cut, if_pos hexposed, hop]
        exact if_pos hsign
      | false =>
        right
        refine ⟨op, Operator.symbol_of_ofChar? hop, rfl, fun cs => ?_⟩
        rw [Scan.mark, cut, if_pos hexposed, hop, Scan.next_of_exposes hexposed]
        exact if_neg (Bool.eq_false_iff.1 hsign)

end Spreadsheet.Formula

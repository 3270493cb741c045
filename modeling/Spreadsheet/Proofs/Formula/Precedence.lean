import Mathlib.Data.List.Induction
import Spreadsheet.Formula.Arithmetic

/-
  Standard precedence.

  A chain is evaluated in one pass, with a stack of the operators that wait for
  their right operands. What the pass computes is said here by a tree: a chain
  is cut at its last sum or difference, else at its last product or quotient,
  else at its first power, and both sides are cut again (`Grouping.ofLinks`).
  The pass evaluates that tree, in the order of its nodes (`foldStandard_eq`).

  Between the two stands the tree as it grows from left to right. One more
  operator goes to the right edge of the tree, below the operators that do not
  bind before it (`Grouping.push`). The waiting operators are that edge.
-/

namespace Spreadsheet.Formula

/-! ## Where a chain is cut -/

def Operator.isSum : Operator → Bool
  | add | subtract => true
  | _ => false

def Operator.isProduct : Operator → Bool
  | multiply | divide => true
  | _ => false

/-- A sum waits for everything before it, a product for what is no sum, and a power
for nothing. -/
theorem Operator.bindsBefore_eq (left right : Operator) :
    left.bindsBefore right = (right.isSum || (right.isProduct && !left.isSum)) := by
  cases left <;> cases right <;> rfl

/-- The links of a chain before one of them, that link, and those after it. -/
abbrev Cut := List (Operator × Float) × (Operator × Float) × List (Operator × Float)

/-- The cut at the last operator with a property. -/
def lastCut? (p : Operator → Bool) : List (Operator × Float) → Option Cut
  | [] => none
  | link :: links =>
    match lastCut? p links with
    | some (before, last, after) => some (link :: before, last, after)
    | none => if p link.1 then some ([], link, links) else none

/-- The cut at the first operator. -/
def firstCut? : List (Operator × Float) → Option Cut
  | [] => none
  | link :: links => some ([], link, links)

/-- The cut at the operator that is applied last: the last sum or difference if
there is one, else the last product or quotient, else the first power. -/
def rootCut? (links : List (Operator × Float)) : Option Cut :=
  (lastCut? Operator.isSum links).or ((lastCut? Operator.isProduct links).or (firstCut? links))

section

variable {links before after : List (Operator × Float)} {link : Operator × Float}

theorem eq_of_lastCut? {p : Operator → Bool} (h : lastCut? p links = some (before, link, after)) :
    links = before ++ link :: after := by
  induction links generalizing before with
  | nil => cases h
  | cons first links ih =>
    rw [lastCut?] at h
    split at h
    · rename_i hrest
      cases h
      rw [ih hrest, List.cons_append]
    · split at h
      · cases h
        rfl
      · cases h

theorem satisfies_of_lastCut? {p : Operator → Bool} (h : lastCut? p links = some (before, link, after)) :
    p link.1 = true := by
  induction links generalizing before with
  | nil => cases h
  | cons first links ih =>
    rw [lastCut?] at h
    split at h
    · rename_i hrest
      cases h
      exact ih hrest
    · split at h
      · rename_i hfirst
        cases h
        exact hfirst
      · cases h

theorem lastCut?_eq_none {p : Operator → Bool} (h : lastCut? p links = none) (hlink : link ∈ links) :
    p link.1 = false := by
  induction links with
  | nil => cases hlink
  | cons first links ih =>
    rw [lastCut?] at h
    split at h
    · cases h
    · rename_i hrest
      split at h
      · cases h
      · rename_i hfirst
        rcases List.mem_cons.1 hlink with rfl | hlink
        · exact Bool.not_eq_true _ ▸ hfirst
        · exact ih hrest hlink

theorem eq_of_rootCut? (h : rootCut? links = some (before, link, after)) :
    links = before ++ link :: after := by
  rw [rootCut?, Option.or_eq_some_iff, Option.or_eq_some_iff] at h
  rcases h with h | ⟨-, h | ⟨-, h⟩⟩
  · exact eq_of_lastCut? h
  · exact eq_of_lastCut? h
  · cases links with
    | nil => cases h
    | cons first links =>
      cases h
      rfl

theorem eq_nil_of_rootCut? (h : rootCut? links = none) : links = [] := by
  rw [rootCut?, Option.or_eq_none_iff, Option.or_eq_none_iff] at h
  cases links with
  | nil => rfl
  | cons first links => cases h.2.2

end

theorem lastCut?_append_singleton (p : Operator → Bool) (links : List (Operator × Float))
    (link : Operator × Float) :
    lastCut? p (links ++ [link]) =
      if p link.1 then some (links, link, [])
      else (lastCut? p links).map fun cut => (cut.1, cut.2.1, cut.2.2 ++ [link]) := by
  induction links with
  | nil => rfl
  | cons first links ih =>
    rw [List.cons_append, lastCut?, ih, lastCut?]
    cases p link.1 with
    | true => rfl
    | false =>
      cases lastCut? p links with
      | some cut => rfl
      | none => cases p first.1 <;> rfl

/-- One link more is where the chain is cut if the operator of the cut so far
binds before it, and comes after that cut otherwise. -/
theorem rootCut?_append_singleton {links before after : List (Operator × Float)}
    {link : Operator × Float} (h : rootCut? links = some (before, link, after))
    (op : Operator) (y : Float) :
    rootCut? (links ++ [(op, y)]) =
      if link.1.bindsBefore op then some (links, (op, y), [])
      else some (before, link, after ++ [(op, y)]) := by
  have hlink : link ∈ links := by
    rw [eq_of_rootCut? h]
    exact List.mem_append_right before List.mem_cons_self
  have hfirst : firstCut? (links ++ [(op, y)]) =
      (firstCut? links).map fun cut => (cut.1, cut.2.1, cut.2.2 ++ [(op, y)]) := by
    cases links with
    | nil => cases hlink
    | cons first links => rfl
  rw [rootCut?] at h ⊢
  rw [lastCut?_append_singleton, lastCut?_append_singleton, hfirst, Operator.bindsBefore_eq]
  dsimp only
  cases op.isSum with
  | true => rfl
  | false =>
    cases hsum : lastCut? Operator.isSum links with
    | some cut =>
      -- the operator of the cut is a sum
      rw [hsum, Option.some_or] at h
      cases h
      simp [satisfies_of_lastCut? hsum]
    | none =>
      -- no operator before this one is a sum
      rw [hsum, Option.none_or] at h
      rw [lastCut?_eq_none hsum hlink]
      cases op.isProduct with
      | true => rfl
      | false =>
        rcases Option.or_eq_some_iff.1 h with hproduct | ⟨hproduct, hpower⟩
        · simp [hproduct]
        · simp [hproduct, hpower]

/-! ## The tree of a chain -/

/-- A chain with its operations grouped. -/
inductive Grouping where
  | operand (x : Float)
  | operation (op : Operator) (left right : Grouping)

namespace Grouping

def eval : Grouping → Except Fault Float
  | operand x => .ok x
  | operation op left right => do
    let x ← left.eval
    let y ← right.eval
    op.apply x y

theorem eval_operand (x : Float) : (operand x).eval = pure x := rfl

theorem eval_operation (op : Operator) (left right : Grouping) :
    (operation op left right).eval = (do op.apply (← left.eval) (← right.eval)) := rfl

/-- The tree of a chain under standard precedence. -/
def ofLinks (x : Float) (links : List (Operator × Float)) : Grouping :=
  match _ : rootCut? links with
  | some (before, (op, y), after) => operation op (ofLinks x before) (ofLinks y after)
  | none => operand x
termination_by links.length
decreasing_by
  all_goals
    rename_i hcut
    rw [eq_of_rootCut? hcut, List.length_append, List.length_cons]
    omega

theorem ofLinks_of_some {x y : Float} {links before after : List (Operator × Float)} {op : Operator}
    (h : rootCut? links = some (before, (op, y), after)) :
    ofLinks x links = operation op (ofLinks x before) (ofLinks y after) := by
  rw [ofLinks]
  split
  · rename_i hcut
    rw [h] at hcut
    cases hcut
    rfl
  · rename_i hcut
    rw [h] at hcut
    cases hcut

theorem ofLinks_nil (x : Float) : ofLinks x [] = operand x := by
  rw [ofLinks]
  rfl

/-- Whether some division in the tree has a divisor that is zero, both sides of
it having values. -/
def DividesByZero : Grouping → Prop
  | operand _ => False
  | operation op left right =>
    left.DividesByZero ∨ right.DividesByZero ∨
      (op = .divide ∧ ∃ x y, left.eval = .ok x ∧ right.eval = .ok y ∧ (y == 0.0) = true)

/-- The tree with an operator and an operand more at its right end. -/
def push (op : Operator) (y : Float) : Grouping → Grouping
  | operand x => operation op (operand x) (operand y)
  | operation top left right =>
    if top.bindsBefore op then operation op (operation top left right) (operand y)
    else operation top left (push op y right)

end Grouping

theorem Operator.apply_eq_error {op : Operator} {x y : Float} {fault : Fault} :
    op.apply x y = .error fault ↔ fault = .divisionByZero ∧ op = .divide ∧ (y == 0.0) = true := by
  cases op with
  | divide =>
    rw [apply]
    cases y == 0.0 with
    | true => simp [@eq_comm Fault .divisionByZero]
    | false => simp
  | _ => simp [apply]

namespace Grouping

/-! ## Trees without a value -/

/-- A tree is without a value exactly if it divides by zero somewhere. -/
theorem eval_eq_error {t : Grouping} {fault : Fault} :
    t.eval = .error fault ↔ fault = .divisionByZero ∧ t.DividesByZero := by
  induction t generalizing fault with
  | operand x => simp [eval, DividesByZero]
  | operation op left right ihl ihr =>
    have hleft : left.DividesByZero ↔ left.eval = .error .divisionByZero := by simp [ihl]
    have hright : right.DividesByZero ↔ right.eval = .error .divisionByZero := by simp [ihr]
    rw [eval, DividesByZero, hleft, hright]
    cases hx : left.eval with
    | error f =>
      obtain ⟨rfl, -⟩ := ihl.1 hx
      simp [bind, Except.bind, @eq_comm Fault .divisionByZero]
    | ok x =>
      cases hy : right.eval with
      | error f =>
        obtain ⟨rfl, -⟩ := ihr.1 hy
        simp [bind, Except.bind, @eq_comm Fault .divisionByZero]
      | ok y =>
        show op.apply x y = .error fault ↔ _
        rw [Operator.apply_eq_error]
        simp

/-! ## One operand after the other -/

/-- The tree of a chain grows at its right end. -/
theorem ofLinks_append_singleton (x : Float) (links : List (Operator × Float)) (op : Operator)
    (y : Float) : ofLinks x (links ++ [(op, y)]) = (ofLinks x links).push op y := by
  -- on the length of the chain: where the new operator binds more, it goes into the right side of the cut
  induction hlength : links.length using Nat.strongRecOn generalizing x links with
  | ind n ih =>
    subst hlength
    cases hcut : rootCut? links with
    | none =>
      obtain rfl := eq_nil_of_rootCut? hcut
      have hone : rootCut? [(op, y)] = some ([], (op, y), []) := by cases op <;> rfl
      rw [ofLinks_nil, List.nil_append, ofLinks_of_some hone, ofLinks_nil, ofLinks_nil]
      rfl
    | some cut =>
      obtain ⟨before, ⟨top, z⟩, after⟩ := cut
      have hmore := rootCut?_append_singleton hcut op y
      have hshorter : after.length < links.length := by
        rw [eq_of_rootCut? hcut, List.length_append, List.length_cons]
        omega
      rw [ofLinks_of_some hcut, push]
      split at hmore
      · rename_i hbinds
        rw [if_pos hbinds, ofLinks_of_some hmore, ofLinks_of_some hcut, ofLinks_nil]
      · rename_i hbinds
        rw [if_neg hbinds, ofLinks_of_some hmore, ih after.length hshorter z after rfl]

/-- So the tree of a chain is the operand it starts with, with the links pushed one
after the other. -/
theorem ofLinks_eq_foldl (x : Float) (links : List (Operator × Float)) :
    ofLinks x links = links.foldl (fun t link => t.push link.1 link.2) (operand x) := by
  induction links using List.reverseRecOn with
  | nil => exact ofLinks_nil x
  | append_singleton links link ih =>
    rw [ofLinks_append_singleton, List.foldl_append, ih]
    rfl

/-! ## The waiting operators are the right edge of the tree -/

/-- The tree with the waiting operators on its right edge, the latest lowest, and
with a given tree at its end. -/
def edge : List (Float × Operator) → Grouping → Grouping
  | [], t => t
  | (w, op) :: waiting, t => edge waiting (operation op (operand w) t)

theorem edge_append (near far : List (Float × Operator)) (t : Grouping) :
    edge (near ++ far) t = edge far (edge near t) := by
  induction near generalizing t with
  | nil => rfl
  | cons first near ih => exact ih _

theorem eval_edge (waiting : List (Float × Operator)) (t : Grouping) :
    (edge waiting t).eval = (do Chain.settleAll waiting (← t.eval)) := by
  induction waiting generalizing t with
  | nil =>
    show t.eval = t.eval >>= Except.ok
    cases t.eval <;> rfl
  | cons first waiting ih =>
    obtain ⟨w, op⟩ := first
    rw [edge, ih, eval]
    cases t.eval <;> rfl

/-- Operators that do not bind before a new one stay above it. -/
theorem push_edge_of_not_binds {op : Operator} {waiting : List (Float × Operator)}
    (h : ∀ entry ∈ waiting, entry.2.bindsBefore op = false) (y : Float) (t : Grouping) :
    (edge waiting t).push op y = edge waiting (t.push op y) := by
  induction waiting generalizing t with
  | nil => rfl
  | cons first waiting ih =>
    have hfirst := h first List.mem_cons_self
    rw [edge, edge, ih fun entry hentry => h entry (List.mem_cons_of_mem _ hentry), push, hfirst]
    rfl

/-- Operators that bind before it come into its left side. -/
theorem push_edge_of_binds {op : Operator} {waiting : List (Float × Operator)}
    (h : ∀ entry ∈ waiting, entry.2.bindsBefore op = true) {y : Float} {t : Grouping}
    (ht : t.push op y = operation op t (operand y)) :
    (edge waiting t).push op y = operation op (edge waiting t) (operand y) := by
  induction waiting generalizing t with
  | nil => exact ht
  | cons first waiting ih =>
    have hfirst := h first List.mem_cons_self
    refine ih (fun entry hentry => h entry (List.mem_cons_of_mem _ hentry)) ?_
    rw [push, hfirst]
    rfl

end Grouping

/-- Whether no waiting operator binds more than a later one. -/
def Ascending (waiting : List (Float × Operator)) : Prop :=
  waiting.Pairwise fun later sooner => sooner.2.precedence ≤ later.2.precedence

theorem Operator.bindsBefore_of_le {left left' right : Operator} (h : left.precedence ≤ left'.precedence)
    (hleft : left.bindsBefore right = true) : left'.bindsBefore right = true := by
  revert h hleft
  cases left <;> cases left' <;> cases right <;> decide

/-- The operators that do not bind before a new one are the sooner ones. -/
theorem Ascending.not_binds {waiting : List (Float × Operator)} (h : Ascending waiting) (op : Operator) :
    ∀ entry ∈ waiting.dropWhile (·.2.bindsBefore op), entry.2.bindsBefore op = false := by
  induction waiting with
  | nil => intro entry hentry; cases hentry
  | cons first waiting ih =>
    obtain ⟨hfirst, hrest⟩ := List.pairwise_cons.1 h
    rw [List.dropWhile_cons]
    split
    · exact ih hrest
    · rename_i hstays
      intro entry hentry
      rcases List.mem_cons.1 hentry with rfl | hentry
      · exact Bool.not_eq_true _ ▸ hstays
      · exact Bool.eq_false_iff.2 fun hbinds => hstays (Operator.bindsBefore_of_le (hfirst entry hentry) hbinds)

theorem Ascending.settled {waiting : List (Float × Operator)} (h : Ascending waiting) (op : Operator)
    (x : Float) : Ascending ((x, op) :: waiting.dropWhile (·.2.bindsBefore op)) := by
  refine List.pairwise_cons.2 ⟨fun entry hentry => ?_, h.sublist (List.dropWhile_sublist _)⟩
  have hstays := h.not_binds op entry hentry
  simp only [Operator.bindsBefore, Bool.or_eq_false_iff, decide_eq_false_iff_not, Nat.not_lt] at hstays
  exact hstays.1

/-- Settling a new operator applies the waiting ones that bind before it. -/
theorem Chain.settle_eq (op : Operator) (waiting : List (Float × Operator)) (x : Float) :
    Chain.settle op waiting x = (do
      let x ← Chain.settleAll (waiting.takeWhile (·.2.bindsBefore op)) x
      .ok (waiting.dropWhile (·.2.bindsBefore op), x)) := by
  induction waiting generalizing x with
  | nil => rfl
  | cons first waiting ih =>
    obtain ⟨w, top⟩ := first
    rw [settle, List.takeWhile_cons, List.dropWhile_cons]
    cases top.bindsBefore op with
    | false => rfl
    | true =>
      show (do settle op waiting (← top.apply w x)) = _
      rw [if_pos rfl, if_pos rfl, settleAll]
      cases top.apply w x with
      | error fault => rfl
      | ok z => exact ih z

namespace Grouping

theorem push_edge {waiting : List (Float × Operator)} (h : Ascending waiting) (op : Operator) (x y : Float) :
    (edge waiting (operand x)).push op y =
      edge (waiting.dropWhile (·.2.bindsBefore op))
        (operation op (edge (waiting.takeWhile (·.2.bindsBefore op)) (operand x)) (operand y)) := by
  have hnear : ∀ entry ∈ waiting.takeWhile (·.2.bindsBefore op), entry.2.bindsBefore op = true :=
    fun entry hentry => List.all_eq_true.1 List.all_takeWhile entry hentry
  calc (edge waiting (operand x)).push op y
      = (edge (waiting.dropWhile (·.2.bindsBefore op))
          (edge (waiting.takeWhile (·.2.bindsBefore op)) (operand x))).push op y := by
        rw [← edge_append, List.takeWhile_append_dropWhile]
    _ = edge (waiting.dropWhile (·.2.bindsBefore op))
          ((edge (waiting.takeWhile (·.2.bindsBefore op)) (operand x)).push op y) :=
        push_edge_of_not_binds (h.not_binds op) y _
    _ = _ := by rw [push_edge_of_binds hnear rfl]

/-! ## The pass evaluates the tree -/

/-- Whether the evaluation of a tree begins with that of `s`, and `rest x` is what
is then left of the tree if the value of `s` is `x`. -/
inductive BeginsWith (s : Grouping) : Grouping → (Float → Grouping) → Prop
  | here (op : Operator) (right : Grouping) :
    BeginsWith s (operation op s right) fun x => operation op (operand x) right
  | left {left : Grouping} {rest : Float → Grouping} (op : Operator) (right : Grouping) :
    BeginsWith s left rest → BeginsWith s (operation op left right) fun x => operation op (rest x) right
  | right {right : Grouping} {rest : Float → Grouping} (op : Operator) (w : Float) :
    BeginsWith s right rest →
      BeginsWith s (operation op (operand w) right) fun x => operation op (operand w) (rest x)

namespace BeginsWith

variable {s t : Grouping} {rest : Float → Grouping}

theorem eval (h : BeginsWith s t rest) : t.eval = (do (rest (← s.eval)).eval) := by
  induction h with
  | here op right => simp only [eval_operation, eval_operand, pure_bind]
  | left op right _ ih => simp only [eval_operation, ih, bind_assoc]
  | right op w _ ih => simp only [eval_operation, eval_operand, ih, pure_bind, bind_assoc]

theorem push (h : BeginsWith s t rest) (op : Operator) (y : Float) :
    BeginsWith s (t.push op y) fun x => (rest x).push op y := by
  induction h with
  | here top right =>
    simp only [Grouping.push]
    cases top.bindsBefore op with
    | true => exact .left _ _ (.here _ _)
    | false => exact .here _ _
  | left top right hleft ih =>
    simp only [Grouping.push]
    cases top.bindsBefore op with
    | true => exact .left _ _ (.left _ _ hleft)
    | false => exact .left _ _ hleft
  | right top w hright ih =>
    simp only [Grouping.push]
    cases top.bindsBefore op with
    | true => exact .left _ _ (.right _ _ hright)
    | false => exact .right _ _ ih

theorem pushAll (h : BeginsWith s t rest) (links : List (Operator × Float)) :
    BeginsWith s (links.foldl (fun t link => t.push link.1 link.2) t) fun x =>
      links.foldl (fun t link => t.push link.1 link.2) (rest x) := by
  induction links generalizing t rest with
  | nil => exact h
  | cons link links ih => exact ih (h.push link.1 link.2)

theorem edge (h : BeginsWith s t rest) (waiting : List (Float × Operator)) :
    BeginsWith s (edge waiting t) fun x => edge waiting (rest x) := by
  induction waiting generalizing t rest with
  | nil => exact h
  | cons entry waiting ih => exact ih (.right entry.2 entry.1 h)

end BeginsWith

/-- The pass, from any stack of waiting operators in order: it evaluates the tree
of which they are the edge, with the links that are left pushed to it. -/
theorem foldWaiting_eq {waiting : List (Float × Operator)} (h : Ascending waiting) (x : Float)
    (links : List (Operator × Float)) :
    Chain.foldWaiting waiting x links =
      (links.foldl (fun t link => t.push link.1 link.2) (edge waiting (operand x))).eval := by
  induction links generalizing waiting x with
  | nil => exact (eval_edge waiting (operand x)).symm
  | cons link links ih =>
    obtain ⟨op, y⟩ := link
    have hbegins := ((BeginsWith.here (s := edge (waiting.takeWhile (·.2.bindsBefore op)) (operand x))
      op (operand y)).edge (waiting.dropWhile (·.2.bindsBefore op))).pushAll links
    rw [List.foldl_cons, push_edge h, hbegins.eval, eval_edge, Chain.foldWaiting, Chain.settle_eq]
    show _ = (do
      let v ← Chain.settleAll (waiting.takeWhile (·.2.bindsBefore op)) x
      _)
    cases Chain.settleAll (waiting.takeWhile (·.2.bindsBefore op)) x with
    | error fault => rfl
    | ok v => exact ih (h.settled op v) y

end Grouping

/-- Standard precedence is what the tree of the chain says. The pass returns the
value of the tree, and fails exactly if some division in the tree, both sides of
it having values, has a divisor that is zero; then that is the fault. -/
theorem Chain.foldStandard_eq (x : Float) (links : List (Operator × Float)) :
    foldStandard x links = (Grouping.ofLinks x links).eval ∧
      ∀ fault, foldStandard x links = .error fault ↔
        fault = .divisionByZero ∧ (Grouping.ofLinks x links).DividesByZero := by
  have hvalue : foldStandard x links = (Grouping.ofLinks x links).eval := by
    rw [Grouping.ofLinks_eq_foldl]
    exact Grouping.foldWaiting_eq List.Pairwise.nil x links
  refine ⟨hvalue, fun fault => ?_⟩
  rw [hvalue]
  exact Grouping.eval_eq_error

/-! ## Sums alone -/

theorem Chain.foldWaiting_of_isSum {op : Operator} (hop : op.isSum = true) (x y : Float)
    {links : List (Operator × Float)} (h : ∀ link ∈ links, link.1.isSum = true) :
    foldWaiting [(x, op)] y links = foldLeft x ((op, y) :: links) := by
  induction links generalizing op x y with
  | nil =>
    show (op.apply x y >>= settleAll []) = (op.apply x y >>= fun z => foldLeft z [])
    cases op.apply x y <;> rfl
  | cons link links ih =>
    obtain ⟨next, z⟩ := link
    have hnext := h (next, z) List.mem_cons_self
    have hbinds : op.bindsBefore next = true := by
      rw [Operator.bindsBefore_eq]
      simp [show next.isSum = true from hnext]
    have hrest := fun w => ih hnext w z fun l hl => h l (List.mem_cons_of_mem _ hl)
    rw [foldWaiting, settle, if_pos hbinds, foldLeft]
    cases op.apply x y with
    | error fault => rfl
    | ok w => exact hrest w

/-- Sums and differences are applied from left to right under either policy. -/
theorem Precedence.fold_of_isSum (p : Precedence) (x : Float) {links : List (Operator × Float)}
    (h : ∀ link ∈ links, link.1.isSum = true) : p.fold x links = Chain.foldLeft x links := by
  cases p with
  | leftToRight => rfl
  | standard =>
    cases links with
    | nil => rfl
    | cons link links =>
      obtain ⟨op, y⟩ := link
      exact Chain.foldWaiting_of_isSum (h (op, y) List.mem_cons_self) x y
        fun l hl => h l (List.mem_cons_of_mem _ hl)

end Spreadsheet.Formula

import Mathlib.Data.List.Nodup
import Spreadsheet.Proofs.Sheet.Frame

/-
  What the listeners of a sheet are told.

  A run is looked at from outside, as the list of its operations with what came
  of each (`history`). From the replies it shows which listeners were registered,
  in which order, and which of them still are at any point (`live`). The sheet
  keeps the same list (`Tracks`), it calls it for every write that is carried out
  and for nothing else (`heeds_run`), and it never gives a number twice. So over
  a whole run each listener is called with the addresses that were written while
  it was registered, once for each write and in order (`calls_history`).
-/

namespace Spreadsheet

/-! ## Histories -/

def Operation.target? : Operation → Option Address
  | .setInput a _ | .setCell a _ _ | .enter a _ => some a
  | _ => none

def Operation.isRegistration : Operation → Bool
  | .addListener | .removeListener _ => true
  | _ => false

/-- An operation with what came of it. -/
structure Event where
  operation : Operation
  outcome : Outcome

namespace Event

def registered? (e : Event) : Option Nat :=
  match e.operation, e.outcome.reply with
  | .addListener, .ok (.registered id) => some id
  | _, _ => none

/-- The address that was written, if the write was carried out. -/
def written? (e : Event) : Option Address :=
  match e.outcome.reply with
  | .ok _ => e.operation.target?
  | .error _ => none

/-- Whether a listener is registered after an event, if it is known whether it
was before. -/
def keeps (id : Nat) (live : Bool) (e : Event) : Bool :=
  match e.operation with
  | .removeListener n => live && id != n
  | _ => live || e.registered? == some id

end Event

def Sheet.history (s : Sheet) : List (Clock × Operation) → List Event
  | [] => []
  | (clock, op) :: steps => ⟨op, op.run clock s⟩ :: history (op.run clock s).sheet steps

def registrations (events : List Event) : List Nat := events.filterMap Event.registered?

/-- Whether a listener was registered, and not removed since. -/
def isLive (events : List Event) (id : Nat) : Bool := events.foldl (Event.keeps id) false

def live (events : List Event) : List Nat := (registrations events).filter (isLive events)

/-- The addresses that were written while a listener was registered. It is told
whether the listener was so at first. -/
def heardBy (id : Nat) : Bool → List Event → List Address
  | _, [] => []
  | live, e :: events =>
    (if live then e.written?.toList else []) ++ heardBy id (e.keeps id live) events

namespace Sheet

/-! ## One operation -/

/-- Whether two sheets have the same listeners, and give the next one the same
number. -/
structure SameListeners (s t : Sheet) : Prop where
  listeners : t.listeners = s.listeners
  nextListener : t.nextListener = s.nextListener

variable {s t : Sheet} {a : Address} {clock : Clock}

theorem SameListeners.refl (s : Sheet) : s.SameListeners s := ⟨rfl, rfl⟩

theorem Frame.sameListeners (h : s.Frame t) : s.SameListeners t := ⟨h.listeners, h.nextListener⟩

theorem SameListeners.trans {u : Sheet} (h : s.SameListeners t) (h' : t.SameListeners u) :
    s.SameListeners u :=
  ⟨h'.listeners.trans h.listeners, h'.nextListener.trans h.nextListener⟩

/-- Whether a write calls every listener, in order, and leaves the listeners as
they are. -/
structure Notifies (s : Sheet) (a : Address) (w : Written) : Prop extends SameListeners s w.sheet where
  calls : w.calls = s.listeners.map (⟨·, a⟩)

theorem notifies_setCell {value : CellValue} {formula : Option String} {cell : Cell}
    (h : (s.setCell a value formula).cell = .ok cell) : s.Notifies a (s.setCell a value formula) := by
  by_cases hin : s.inBounds a = true
  · rw [Sheet.setCell, if_pos hin]
    exact ⟨⟨rfl, rfl⟩, rfl⟩
  · rw [setCell_of_not_inBounds hin] at h
    cases h

theorem notifies_setInput {text : String} {cell : Cell} (h : (s.setInput a text).cell = .ok cell) :
    s.Notifies a (s.setInput a text) := by
  by_cases hformula : isFormulaInput text = true
  · simp only [Sheet.setInput, hformula, if_true] at h ⊢
    exact notifies_setCell h
  · simp only [Sheet.setInput, hformula] at h ⊢
    exact notifies_setCell h

/-- A text that is entered is written once. Its evaluation calls nobody. -/
theorem notifies_enter {text : String} {cell : Cell} (h : (s.enter clock a text).cell = .ok cell) :
    s.Notifies a (s.enter clock a text) := by
  unfold Sheet.enter at h ⊢
  dsimp only at h ⊢
  cases hcell : (s.setInput a text).cell with
  | error e =>
    rw [hcell] at h
    exact absurd (hcell.symm.trans h) (by simp)
  | ok written =>
    -- the result is stored by `setResult`, not written
    have hwritten := notifies_setInput hcell
    exact ⟨hwritten.toSameListeners.trans (frame_recalculateCell _ clock a).sameListeners, hwritten.calls⟩

theorem sameListeners_setInput (s : Sheet) (a : Address) (text : String) :
    s.SameListeners (s.setInput a text).sheet := by
  cases hcell : (s.setInput a text).cell with
  | ok cell => exact (notifies_setInput hcell).toSameListeners
  | error e =>
    rw [(s.atomic_setInput a text e hcell).1]
    exact .refl s

theorem Moves.sameListeners (h : s.Moves t) : s.SameListeners t := by
  obtain ⟨f, rows, cols, -, rfl⟩ := h
  exact ⟨rfl, rfl⟩

/-- How an event changes who is registered: one listener joins, under the number
that is next, or one leaves, or the listeners stay. -/
inductive Turnover (s : Sheet) (e : Event) : Prop
  | joins (registered : e.registered? = some s.nextListener)
      (keeps : ∀ id live, e.keeps id live = (live || s.nextListener == id))
      (listeners : e.outcome.sheet.listeners = s.listeners ++ [s.nextListener])
      (nextListener : e.outcome.sheet.nextListener = s.nextListener + 1)
  | leaves (n : Nat) (registered : e.registered? = none)
      (keeps : ∀ id live, e.keeps id live = (live && id != n))
      (listeners : e.outcome.sheet.listeners = s.listeners.filter (· != n))
      (nextListener : e.outcome.sheet.nextListener = s.nextListener)
  | stays (registered : e.registered? = none) (keeps : ∀ id live, e.keeps id live = live)
      (same : s.SameListeners e.outcome.sheet)

/-- Whether an event calls every listener, in order, if it wrote a cell, and
nobody otherwise. -/
def Told (s : Sheet) (e : Event) : Prop :=
  e.outcome.calls = match e.written? with
    | some a => s.listeners.map (⟨·, a⟩)
    | none => []

section

variable {op : Operation} {o : Outcome}

theorem turnover_of_same (hop : op.isRegistration = false) (h : s.SameListeners o.sheet) :
    s.Turnover ⟨op, o⟩ := by
  have hregistered : (Event.mk op o).registered? = none := by
    cases op with
    | addListener => cases hop
    | _ => rfl
  refine .stays hregistered (fun id live => ?_) h
  unfold Event.keeps
  rw [hregistered]
  cases op with
  | removeListener n => cases hop
  | _ => simp

theorem told_of_calls_eq_nil (hcalls : o.calls = []) (htarget : op.target? = none) :
    s.Told ⟨op, o⟩ := by
  have hwritten : (Event.mk op o).written? = none := by
    unfold Event.written?
    split
    · exact htarget
    · rfl
  rw [Told, hwritten]
  exact hcalls

theorem heeds_ofWrite {reply : Cell → Reply} {w : Written} (hop : op.isRegistration = false)
    (htarget : op.target? = some a) (hw : w.Atomic s) (h : ∀ cell, w.cell = .ok cell → s.Notifies a w) :
    s.Turnover ⟨op, .ofWrite reply w⟩ ∧ s.Told ⟨op, .ofWrite reply w⟩ := by
  obtain ⟨t, result, calls⟩ := w
  cases result with
  | ok cell =>
    obtain ⟨hsame, hcalls⟩ := h cell rfl
    refine ⟨turnover_of_same hop hsame, ?_⟩
    rw [Told, Event.written?]
    simpa [Outcome.ofWrite, Except.map, htarget] using hcalls
  | error e =>
    obtain ⟨rfl, rfl⟩ := hw e rfl
    exact ⟨turnover_of_same hop (.refl t), rfl⟩

theorem heeds_ofChange {c : Change} (hop : op.isRegistration = false) (htarget : op.target? = none)
    (h : s.SameListeners c.sheet) : s.Turnover ⟨op, .ofChange c⟩ ∧ s.Told ⟨op, .ofChange c⟩ :=
  ⟨turnover_of_same hop h, told_of_calls_eq_nil rfl htarget⟩

end

theorem sameListeners_restructured (s : Sheet) (op : Operation) :
    s.SameListeners (s.restructured op).sheet :=
  (s.atomic_restructured op).keeps (.refl s) fun _ ht => (moves_of_restructured ht).sameListeners

theorem heeds_run (s : Sheet) (clock : Clock) (op : Operation) :
    s.Turnover ⟨op, op.run clock s⟩ ∧ s.Told ⟨op, op.run clock s⟩ := by
  have hlines := s.sameListeners_restructured op
  cases op with
  | setInput a text => exact heeds_ofWrite rfl rfl (s.atomic_setInput a text) fun _ => notifies_setInput
  | setCell a value formula =>
    exact heeds_ofWrite rfl rfl (s.atomic_setCell a value formula) fun _ => notifies_setCell
  | enter a text => exact heeds_ofWrite rfl rfl (s.atomic_enter a clock text) fun _ => notifies_enter
  | setResult a value => exact heeds_ofChange rfl rfl (frame_setResult s a value).sameListeners
  | insertRows first count => exact heeds_ofChange rfl rfl hlines
  | insertCols first count => exact heeds_ofChange rfl rfl hlines
  | deleteRows first count => exact heeds_ofChange rfl rfl hlines
  | deleteCols first count => exact heeds_ofChange rfl rfl hlines
  | clear first last => exact ⟨turnover_of_same rfl ⟨rfl, rfl⟩, rfl⟩
  | recalculate options =>
    exact ⟨turnover_of_same rfl (frame_setResults s _).sameListeners, rfl⟩
  | recalculateCell a =>
    exact ⟨turnover_of_same rfl (frame_recalculateCell s clock a).sameListeners, rfl⟩
  | addListener =>
    exact ⟨.joins rfl (fun id live => by simp [Event.keeps, Event.registered?, Operation.run, Sheet.addListener])
      rfl rfl, rfl⟩
  | removeListener n => exact ⟨.leaves n rfl (fun _ _ => rfl) rfl rfl, rfl⟩

/-! ## Runs -/

/-- Whether the listeners of a sheet are those that events have left registered,
and the numbers that were given are those below the next one, in order. -/
structure Tracks (events : List Event) (s : Sheet) : Prop where
  listeners : s.listeners = live events
  given : registrations events = List.range s.nextListener

theorem Tracks.lt {events : List Event} (h : Tracks events s) {id : Nat}
    (hid : id ∈ registrations events) : id < s.nextListener := by
  rw [h.given] at hid
  exact List.mem_range.1 hid

theorem Tracks.nodup {events : List Event} (h : Tracks events s) :
    (registrations events).Nodup := by
  rw [h.given]
  exact List.nodup_range

theorem registrations_append_singleton (events : List Event) (e : Event) :
    registrations (events ++ [e]) = registrations events ++ e.registered?.toList := by
  rw [registrations, List.filterMap_append]
  cases h : e.registered? <;> simp [registrations, h]

theorem isLive_append_singleton (events : List Event) (e : Event) (id : Nat) :
    isLive (events ++ [e]) id = e.keeps id (isLive events id) := by
  simp [isLive]

theorem Tracks.run {events : List Event} (h : Tracks events s) (clock : Clock) (op : Operation) :
    Tracks (events ++ [⟨op, op.run clock s⟩]) (op.run clock s).sheet := by
  have hturnover := (s.heeds_run clock op).1
  have hlive : ∀ id, isLive (events ++ [⟨op, op.run clock s⟩]) id =
      (Event.mk op (op.run clock s)).keeps id (isLive events id) := isLive_append_singleton events _
  cases hturnover with
  | joins registered keeps listeners next =>
    have hreg : registrations (events ++ [⟨op, op.run clock s⟩]) = registrations events ++ [s.nextListener] := by
      rw [registrations_append_singleton, registered]
      rfl
    refine ⟨?_, ?_⟩
    · -- the number is above those that were given, so it changes nothing for them
      rw [listeners, h.listeners, live, live, hreg, List.filter_append]
      congr 1
      · refine List.filter_congr fun id hid => ?_
        have hne : s.nextListener ≠ id := (Nat.ne_of_lt (h.lt hid)).symm
        simp [hlive, keeps, hne]
      · simp [hlive, keeps]
    · rw [hreg, next, h.given, List.range_succ]
  | leaves n registered keeps listeners next =>
    have hreg : registrations (events ++ [⟨op, op.run clock s⟩]) = registrations events := by
      rw [registrations_append_singleton, registered]
      exact List.append_nil _
    refine ⟨?_, ?_⟩
    · -- the sheet filters its list by the number, and so does the history
      rw [listeners, h.listeners, live, live, hreg, List.filter_filter]
      refine List.filter_congr fun id _ => ?_
      rw [hlive, keeps, Bool.and_comm]
    · rw [hreg, next, h.given]
  | stays registered keeps same =>
    have hreg : registrations (events ++ [⟨op, op.run clock s⟩]) = registrations events := by
      rw [registrations_append_singleton, registered]
      exact List.append_nil _
    refine ⟨?_, ?_⟩
    · rw [same.listeners, h.listeners, live, live, hreg]
      refine List.filter_congr fun id _ => ?_
      rw [hlive, keeps]
    · rw [hreg, same.nextListener, h.given]

theorem history_cons (s : Sheet) (clock : Clock) (op : Operation) (steps : List (Clock × Operation)) :
    s.history ((clock, op) :: steps) = ⟨op, op.run clock s⟩ :: (op.run clock s).sheet.history steps := rfl

theorem Tracks.history {events : List Event} (h : Tracks events s) (steps : List (Clock × Operation)) :
    Tracks (events ++ s.history steps) (s.after steps) := by
  induction steps generalizing events s with
  | nil =>
    rw [Sheet.history, List.append_nil]
    exact h
  | cons step steps ih =>
    obtain ⟨clock, op⟩ := step
    rw [history_cons, List.append_cons]
    exact ih (h.run clock op)

/-- At any point of a run those are called for a write that are registered
then. -/
theorem Tracks.calls {events before after : List Event} {e : Event} {steps : List (Clock × Operation)}
    (h : Tracks events s) (hsplit : s.history steps = before ++ e :: after) :
    e.outcome.calls = match e.written? with
      | some a => (live (events ++ before)).map (⟨·, a⟩)
      | none => [] := by
  induction steps generalizing events before s with
  | nil => simp [Sheet.history] at hsplit
  | cons step steps ih =>
    obtain ⟨clock, op⟩ := step
    rw [history_cons] at hsplit
    cases before with
    | nil =>
      cases hsplit
      rw [List.append_nil, ← h.listeners]
      exact (s.heeds_run clock op).2
    | cons first before =>
      obtain ⟨rfl, hrest⟩ := List.cons.inj hsplit
      rw [List.append_cons]
      exact ih (h.run clock op) hrest

theorem mem_registrations_of_isLive {events : List Event} {id : Nat} (h : isLive events id = true) :
    id ∈ registrations events := by
  induction events using List.reverseRecOn with
  | nil => cases h
  | append_singleton events e ih =>
    rw [registrations_append_singleton, List.mem_append, Option.mem_toList]
    rw [isLive_append_singleton, Event.keeps] at h
    split at h
    · rw [Bool.and_eq_true] at h
      exact .inl (ih h.1)
    · rw [Bool.or_eq_true, beq_iff_eq] at h
      exact h.imp_left ih

theorem mem_live {events : List Event} {id : Nat} : id ∈ live events ↔ isLive events id = true := by
  rw [live, List.mem_filter]
  exact ⟨And.right, fun h => ⟨mem_registrations_of_isLive h, h⟩⟩

theorem filter_calls {listeners : List Nat} (h : listeners.Nodup) (a : Address) (id : Nat) :
    ((listeners.map (⟨·, a⟩)).filter fun call : Call => call.listener == id).map Call.address =
      if id ∈ listeners then [a] else [] := by
  rw [List.filter_map, List.map_map, show ((fun call : Call => call.listener == id) ∘ (⟨·, a⟩)) = (· == id) from rfl,
    List.filter_beq, List.map_replicate, h.count]
  split <;> rfl

/-- Over a run a listener is called with what is written while it is
registered. -/
theorem Tracks.heard {events : List Event} (h : Tracks events s) (id : Nat)
    (steps : List (Clock × Operation)) :
    (((s.history steps).flatMap fun e => e.outcome.calls).filter (·.listener == id)).map Call.address =
      heardBy id (isLive events id) (s.history steps) := by
  -- on the rest of the run; what the listener missed or heard before is in the events
  induction steps generalizing events s with
  | nil => rfl
  | cons step steps ih =>
    obtain ⟨clock, op⟩ := step
    rw [history_cons, List.flatMap_cons, List.filter_append, List.map_append, ih (h.run clock op),
      isLive_append_singleton, heardBy]
    congr 1
    have htold := (s.heeds_run clock op).2
    have hnodup : s.listeners.Nodup := h.listeners ▸ h.nodup.filter _
    have hmem : id ∈ s.listeners ↔ isLive events id = true := h.listeners ▸ mem_live
    rw [htold]
    cases hwritten : (Event.mk op (op.run clock s)).written? with
    | none => simp
    | some a => simp [filter_calls hnodup, hmem]

theorem Initial.tracks (h : s.Initial) : Tracks [] s := by
  have hsame : SameListeners (Sheet.ofBounds 0 0) s := by
    cases h with
    | ofBounds rows cols => exact ⟨rfl, rfl⟩
    | ofTable h =>
      refine ofTable_keeps (p := SameListeners (Sheet.ofBounds 0 0)) (fun {t} a text ht => ?_)
        (fun _ _ => ⟨rfl, rfl⟩) h
      exact ht.trans (sameListeners_setInput t a text)
  exact ⟨hsame.listeners, by rw [hsame.nextListener]; rfl⟩

theorem length_history (s : Sheet) (steps : List (Clock × Operation)) :
    (s.history steps).length = steps.length := by
  induction steps generalizing s with
  | nil => rfl
  | cons step steps ih => exact congrArg Nat.succ (ih _)

/-- The numbers of the listeners are the first ones there are, in order. There are
at most as many as there were operations, so a counter that starts again after
`2 ^ 64` numbers gives the same ones to the first `2 ^ 64` operations. -/
theorem registrations_history (hs : s.Initial) (steps : List (Clock × Operation)) :
    registrations (s.history steps) = List.range (s.after steps).nextListener ∧
      (s.after steps).nextListener ≤ steps.length := by
  have hregistrations := (hs.tracks.history steps).given
  refine ⟨hregistrations, ?_⟩
  have hlength := congrArg List.length hregistrations
  rw [List.length_range] at hlength
  rw [← hlength, ← length_history s steps]
  exact List.length_filterMap_le _ _

/-- Whatever is done to a sheet, every listener gets a number of its own, and
is called with the addresses that were written while it was registered: once for
each write that was carried out, in the order of the writes. For one write the
listeners are called in the order in which they were registered, and an operation
that writes nothing calls none. -/
theorem calls_history (hs : s.Initial) (steps : List (Clock × Operation)) :
    (registrations (s.history steps)).Nodup ∧
    (∀ id, (((s.history steps).flatMap fun e => e.outcome.calls).filter (·.listener == id)).map
      Call.address = heardBy id false (s.history steps)) ∧
    ∀ before e after, s.history steps = before ++ e :: after →
      e.outcome.calls = match e.written? with
        | some a => (live before).map (⟨·, a⟩)
        | none => [] :=
  ⟨(hs.tracks.history steps).nodup, fun id => hs.tracks.heard id steps,
    fun _ _ _ hsplit => hs.tracks.calls hsplit⟩

/-- Three listeners, of which the second is removed after a write. Another write
is refused, a formula is entered, and what else is done writes nothing. -/
def leaving : List (Clock × Operation) :=
  [(.epoch, .addListener), (.epoch, .addListener), (.epoch, .addListener),
    (.epoch, .setCell ⟨0, 0⟩ (.text "x") none), (.epoch, .removeListener 1),
    (.epoch, .setInput ⟨2, 0⟩ "out"), (.epoch, .enter ⟨1, 1⟩ "=1"), (.epoch, .insertRows 0 1),
    (.epoch, .recalculate .default), (.epoch, .clear ⟨0, 0⟩ ⟨2, 1⟩)]

theorem calls_history_leaving :
    registrations ((ofBounds 2 2).history leaving) = [0, 1, 2] ∧
    ((((ofBounds 2 2).history leaving).flatMap fun e => e.outcome.calls).filter (·.listener == 1)).map
      Call.address = [⟨0, 0⟩] ∧
    ((((ofBounds 2 2).history leaving).flatMap fun e => e.outcome.calls).filter (·.listener == 2)).map
      Call.address = [⟨0, 0⟩, ⟨1, 1⟩] ∧
    ((Operation.enter ⟨1, 1⟩ "=1").run .epoch ((ofBounds 2 2).after (leaving.take 6))).calls =
      [⟨0, ⟨1, 1⟩⟩, ⟨2, ⟨1, 1⟩⟩] := by
  obtain ⟨-, hheard, hcalls⟩ := calls_history (.ofBounds 2 2) leaving
  refine ⟨by decide +kernel, (hheard 1).trans (by decide +kernel), (hheard 2).trans (by decide +kernel), ?_⟩
  have hentered := hcalls ((ofBounds 2 2).history (leaving.take 6))
    ⟨.enter ⟨1, 1⟩ "=1", (Operation.enter ⟨1, 1⟩ "=1").run .epoch ((ofBounds 2 2).after (leaving.take 6))⟩
    _ rfl
  exact hentered.trans (by decide +kernel)

end Sheet

end Spreadsheet

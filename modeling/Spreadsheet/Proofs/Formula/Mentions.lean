import Spreadsheet.Proofs.Formula.Quiet

/-
  What an expression looks at.

  `Mentions` reads off a text which cells it refers to. These cells and the
  clock, if the text is not quiet, are all that an evaluation asks for outside
  the expression, so two evaluations whose answers for them are alike have
  values that are alike (`levels_alike_of_mentions`).
-/

namespace Spreadsheet.Formula

/-- The parts that a shape may ask for. -/
def Shape.parts : Shape → List (List Char)
  | .group inside => [inside]
  | .call _ args => arguments args
  | .comparison left _ right => [left, right]
  | .chain c => c.operands
  | .negated operand | .affirmed operand => [operand]
  | _ => []

theorem Shape.parts_iff {p : List Char → Prop} (sh : Shape) :
    sh.Parts p ↔ ∀ part ∈ sh.parts, p part := by
  cases sh <;> simp [Parts, parts]

/-- Whether an expression refers to the cell at an address: by its name, by a
range around it, or in a part. -/
inductive Mentions : List Char → String → Prop
  | reference {e name : List Char} : Shape.ofExpr (Text.trim e) = .reference name →
      Mentions e (String.ofList name)
  | range {e : List Char} {range : Range} {a : Address} : isRangeForm (Text.trim e) = true →
      Range.ofText (Text.trim e) = .ok range → range.contains a = true → Mentions e a.label
  | part {e part : List Char} {address : String} : part ∈ (Shape.ofExpr (Text.trim e)).parts →
      Mentions part address → Mentions e address

theorem Mentions.of_trim {e : List Char} {address : String} (h : Mentions (Text.trim e) address) :
    Mentions e address := by
  cases h with
  | reference hshape =>
    rw [Text.trim_trim] at hshape
    exact .reference hshape
  | range hform hrange ha =>
    rw [Text.trim_trim] at hform hrange
    exact .range hform hrange ha
  | part hpart h =>
    rw [Text.trim_trim] at hpart
    exact .part hpart h

/-- Whether an expression looks at nothing that another one does not look at. -/
structure Within (e whole : List Char) : Prop where
  cells : ∀ address, Mentions e address → Mentions whole address
  clock : Quiet whole → Quiet e

namespace Within

variable {e whole : List Char}

theorem refl (e : List Char) : Within e e := ⟨fun _ h => h, fun h => h⟩

theorem trim (h : Within e whole) : Within (Text.trim e) whole where
  cells address hmentions := h.cells address hmentions.of_trim
  clock hquiet := (h.clock hquiet).trim

theorem parts (h : Within e whole) : (Shape.ofExpr (Text.trim e)).Parts (Within · whole) := by
  rw [Shape.parts_iff]
  intro part hpart
  refine ⟨fun address hmentions => h.cells address (.part hpart hmentions), fun hquiet => ?_⟩
  exact (Shape.parts_iff _).1 (h.clock hquiet).trim.parts part hpart

end Within

/-- Two ways to evaluate an expression are alike if they are for the cells that it
mentions, and for the clock if it may ask for the time. -/
theorem levels_alike_of_mentions {R : (α : Type) → Run α → Run α → Prop} (hR : Sequential R)
    {ctx ctx' : Context} {f g : String → List Char → Run Value} {whole : List Char}
    (hprecedence : ctx.options.precedence = ctx'.options.precedence) (hbounds : ctx.bounds = ctx'.bounds)
    (hlimit : ctx.options.maxRangeCells = ctx'.options.maxRangeCells)
    (hnow : Quiet whole ∨ R Moment ctx.now ctx'.now)
    (hcell : ∀ x y a, isAddressForm a = true → Mentions whole (String.ofList a) →
      R Value ((⟨ctx, x, f⟩ : Scope).cell (String.ofList a))
        ((⟨ctx', y, g⟩ : Scope).cell (String.ofList a))) (n : Nat) :
    R Value (levels ctx f n whole) (levels ctx' g n whole) := by
  refine levels_alike hR (p := (Within · whole))
    (q := fun a => isAddressForm a = true ∧ Mentions whole (String.ofList a)) hprecedence
    (fun e he => he.parts) (fun e he => he.trim) ?_ ?_ (fun x y a ha => hcell x y a ha.1 ha.2) ?_ n whole
    (.refl whole)
  · intro e name args he hcall hname
    rcases hnow with hquiet | hnow
    · exact absurd hname ((he.clock hquiet).trim.ne_now hcall)
    · exact hnow
  · intro e a he hshape
    exact ⟨isAddressForm_of_reference hshape, he.cells _ (.reference hshape)⟩
  · intro x y e range he hform hread
    refine Scope.rangeCells_alike hR _ hbounds hlimit fun a ha => ?_
    exact hcell x y a.name (isAddressForm_name a) (he.cells _ (.range hform hread ha))

end Spreadsheet.Formula

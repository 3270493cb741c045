import Spreadsheet.Number.Nearest
import Spreadsheet.Text.Word

/-
  The shortest decimal that reads back as a given double.

  On the grid of decimals with `n` significant digits only the two neighbours
  of the value can read back as it if any point of the grid does. The first
  grid with such a neighbour gives the answer: the nearer one if both read
  back, and the greater one of two that are equally near.
-/

namespace Spreadsheet.Number

/-- The exponent of the power of ten at or below a positive fraction. -/
def fractionLog10 (num den : Nat) : Int :=
  if den ≤ num then (Text.digits (num / den)).length - 1
  else
    let n := (Text.digits (den / num)).length
    if den ≤ num * tenTo (n - 1) then -((n : Int) - 1) else -(n : Int)

/-- The neighbour of a fraction on the grid with spacing `10^place` that reads
back as the double with the given parts, the nearer one if both do. -/
def neighbour? (parts : Nat × Int) (num den : Nat) (place : Int) : Option Decimal :=
  let num := num * tenTo (-place).toNat
  let den := den * tenTo place.toNat
  let below : Decimal := ⟨num / den, place⟩
  let above : Decimal := ⟨num / den + 1, place⟩
  let low := below.nearestParts == parts
  let high := above.nearestParts == parts
  if low && (!high || 2 * (num % den) < den) then some below
  else if high then some above
  else none

/-- The shortest decimal for the double `m · 2^q`. Seventeen digits always
suffice; the exact value stands in for the case that they should not. -/
def shortest (m : Nat) (q : Int) : Decimal :=
  let num := m <<< q.toNat
  let den := 1 <<< (-q).toNat
  let top := fractionLog10 num den
  match (List.range 17).findSome? fun (n : Nat) => neighbour? (m, q) num den (top - n) with
  | some d => d
  | none => ⟨num * Nat.pow 5 (-q).toNat, min q 0⟩

/-- Whatever decimal a grid offers reads back. -/
theorem nearestParts_of_neighbour? {parts : Nat × Int} {num den : Nat} {place : Int} {d : Decimal}
    (h : neighbour? parts num den place = some d) : d.nearestParts = parts := by
  simp only [neighbour?] at h
  split at h
  · rename_i hlow
    cases h
    exact eq_of_beq (Bool.and_eq_true _ _ ▸ hlow).1
  · split at h
    · rename_i hhigh
      cases h
      exact eq_of_beq hhigh
    · cases h

end Spreadsheet.Number

import Spreadsheet.Number.Literal
import Spreadsheet.Proofs.Text.Digits

/-
  How a literal is read.

  A literal that has a digit after its sign is no word, and so it is its digits
  and its exponent (`ofLiteral_of_isDigit`); a text in which something else
  follows the digits is no literal.
-/

namespace Spreadsheet.Number

open Text (isDigit)

variable {c : Char} {cs text whole fraction rest : List Char} {negative : Bool}

theorem readSign_of_isDigit (hc : isDigit c = true) (cs : List Char) : readSign (c :: cs) = (false, c :: cs) := by
  unfold readSign
  split
  · rename_i heq
    cases heq
    cases hc
  · rename_i heq
    cases heq
    cases hc
  · rfl

/-- No word starts with a digit. -/
theorem spells_of_isDigit (hc : isDigit c = true) (cs : List Char) {first : Char}
    (hfirst : Text.isCapital first = true) (word : List Char) :
    Text.spells (String.ofList (first :: word)) (c :: cs) = false := by
  rw [Text.isDigit_iff] at hc
  exact Text.spells_eq_false (by omega) cs hfirst word

/-- A literal that has a digit after its sign is its digits with its exponent. -/
theorem ofLiteral_of_isDigit (hc : isDigit c = true) (hsign : readSign text = (negative, c :: cs))
    (hdigits : readDigits (c :: cs) = (whole, fraction, rest)) (hwhole : whole ≠ []) :
    ofLiteral text =
      (readExponent rest).map fun e => ofDigits negative (whole ++ fraction) (e - fraction.length) := by
  have hinf : Text.spells "INF" (c :: cs) = false :=
    spells_of_isDigit hc cs (show Text.isCapital 'I' = true from rfl) ['N', 'F']
  have hinfinity : Text.spells "INFINITY" (c :: cs) = false :=
    spells_of_isDigit hc cs (show Text.isCapital 'I' = true from rfl) ['N', 'F', 'I', 'N', 'I', 'T', 'Y']
  have hnan : Text.spells "NAN" (c :: cs) = false :=
    spells_of_isDigit hc cs (show Text.isCapital 'N' = true from rfl) ['A', 'N']
  simp [ofLiteral, hsign, hinf, hinfinity, hnan, hdigits, hwhole]

theorem readDigits_append (hwhole : ∀ c ∈ whole, isDigit c = true)
    (hrest : ∀ c ∈ rest.head?, isDigit c = false ∧ c ≠ '.') : readDigits (whole ++ rest) = (whole, [], rest) := by
  obtain ⟨htake, hdrop⟩ := Text.split_append hwhole fun c hc => (hrest c hc).1
  rw [readDigits, hdrop, htake]
  split
  · exact absurd rfl (hrest '.' rfl).2
  · rfl

theorem readDigits_append_point (hwhole : ∀ c ∈ whole, isDigit c = true)
    (hfraction : ∀ c ∈ fraction, isDigit c = true) (hrest : ∀ c ∈ rest.head?, isDigit c = false) :
    readDigits (whole ++ '.' :: (fraction ++ rest)) = (whole, fraction, rest) := by
  have hpoint : ∀ c ∈ ('.' :: (fraction ++ rest)).head?, isDigit c = false := by
    rintro _ ⟨⟩
    rfl
  obtain ⟨htake, hdrop⟩ := Text.split_append hwhole hpoint
  obtain ⟨htake', hdrop'⟩ := Text.split_append hfraction hrest
  simp only [readDigits, htake, hdrop, htake', hdrop']

end Spreadsheet.Number

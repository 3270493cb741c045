/-
  Letters, digits and decimal numerals.

  The names of columns and functions, row numbers and the digits of numbers
  are ASCII, whatever other letters and digits Unicode knows. `digits` writes
  a natural number and `natOfDigits` reads one; reading undoes writing.
-/

namespace Spreadsheet.Text

def isDigit (c : Char) : Bool := '0' ≤ c && c ≤ '9'

/-- The capital letters of ASCII. -/
def isCapital (c : Char) : Bool := 'A' ≤ c && c ≤ 'Z'

def isLetter (c : Char) : Bool := isCapital c || ('a' ≤ c && c ≤ 'z')

def digitValue (c : Char) : Nat := c.toNat - '0'.toNat

def digitChar (n : Nat) : Char := Char.ofNat ('0'.toNat + n)

/-- The number a text of digits denotes, most significant digit first. -/
def natOfDigits (cs : List Char) : Nat := cs.foldl (fun n c => n * 10 + digitValue c) 0

/-- The decimal numeral of a natural number, without leading zeros. -/
def digits (n : Nat) : List Char :=
  if n < 10 then [digitChar n] else digits (n / 10) ++ [digitChar (n % 10)]

/-- The decimal numeral of a natural number, filled with zeros to a width. -/
def paddedDigits (width n : Nat) : List Char :=
  List.replicate (width - (digits n).length) '0' ++ digits n

/-- Whether the text spells the word, ASCII letters compared without case. The
word is given in capitals. -/
def spells (word : String) (cs : List Char) : Bool := cs.map Char.toUpper == word.toList

theorem digitValue_digitChar {n : Nat} (h : n < 10) : digitValue (digitChar n) = n := by
  have : ∀ m < 10, digitValue (digitChar m) = m := by decide
  exact this n h

theorem isDigit_digitChar {n : Nat} (h : n < 10) : isDigit (digitChar n) = true := by
  have : ∀ m < 10, isDigit (digitChar m) = true := by decide
  exact this n h

theorem natOfDigits_append_singleton (cs : List Char) (c : Char) :
    natOfDigits (cs ++ [c]) = natOfDigits cs * 10 + digitValue c := by
  simp [natOfDigits]

@[simp] theorem natOfDigits_digits (n : Nat) : natOfDigits (digits n) = n := by
  fun_induction digits n with
  | case1 n h => simpa [natOfDigits] using digitValue_digitChar h
  | case2 n h ih =>
    rw [natOfDigits_append_singleton, ih, digitValue_digitChar (Nat.mod_lt n (by decide))]
    omega

theorem isDigit_of_mem_digits {n : Nat} {c : Char} (h : c ∈ digits n) : isDigit c = true := by
  fun_induction digits n with
  | case1 n hn => simp only [List.mem_singleton] at h; exact h ▸ isDigit_digitChar hn
  | case2 n hn ih =>
    rcases List.mem_append.1 h with h | h
    · exact ih h
    · simp only [List.mem_singleton] at h
      exact h ▸ isDigit_digitChar (Nat.mod_lt n (by decide))

theorem digits_ne_nil (n : Nat) : digits n ≠ [] := by
  unfold digits; split <;> simp

end Spreadsheet.Text

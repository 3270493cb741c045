import Spreadsheet.Address.Error
import Spreadsheet.Text.Word

/-
  Column names: A, B, …, Z, AA, AB, …

  The letters are numerals of base 26 with the digits one to twenty-six and no
  zero, so every column has one name and every word of capitals is the name of
  one number. Columns count from zero, names from one: column 0 is A.
-/

namespace Spreadsheet.Column

/-- One more than the greatest column, and than the greatest row. -/
def bound : Nat := UInt32.size

/-- The letter of a digit counted from zero: 0 is A. -/
def letterChar (n : Nat) : Char := Char.ofNat ('A'.toNat + n)

/-- The digit of a letter in either case counted from one: A and a are 1. -/
def letterValue (c : Char) : Nat := c.toUpper.toNat - 'A'.toNat + 1

/-- The name of the column with the given number. -/
def lettersOf (n : Nat) : List Char :=
  if n < 26 then [letterChar n] else lettersOf (n / 26 - 1) ++ [letterChar (n % 26)]

def letters (col : UInt32) : List Char := lettersOf col.toNat

/-- The number that letters denote in base 26 with digits one to twenty-six. -/
def value (cs : List Char) : Nat := cs.foldl (fun n c => n * 26 + letterValue c) 0

/-- Reads letters on top of what was read so far. Reading stops at the first
character that is no letter and at the first letter that passes the bound;
`word` is the whole text, for the message. -/
def readLetters (word : List Char) : Nat → List Char → Except AddressError Nat
  | n, [] => .ok n
  | n, c :: cs =>
    if Text.isLetter c then
      let n := n * 26 + letterValue c
      if n > bound then .error (.columnTooLarge (String.ofList word)) else readLetters word n cs
    else .error (.notALetter c)

/-- The column that letters name, in either case. -/
def ofLetters (cs : List Char) : Except AddressError UInt32 :=
  if cs.isEmpty then .error .noLetters
  else (readLetters cs 0 cs).map fun n => (n - 1).toUInt32

end Spreadsheet.Column

import Spreadsheet.Text.Blank
import Spreadsheet.Text.Case
import Spreadsheet.Text.Word

/-
  Characters and trimming.

  Capitals and digits are their own capitals, and no other characters but small
  letters become letters or digits by capitals (`toUpper_spec`). Neither letters
  nor digits are blanks. A text without outer blanks is its own trimming, and
  trimming stops on both sides at what is no blank (`trim_append_cons`).
-/

namespace Spreadsheet

namespace Text

theorem isCapital_iff {c : Char} : isCapital c = true ↔ 65 ≤ c.toNat ∧ c.toNat ≤ 90 := by
  simp [isCapital, Char.le_def, UInt32.le_iff_toNat_le]

theorem isDigit_iff {c : Char} : isDigit c = true ↔ 48 ≤ c.toNat ∧ c.toNat ≤ 57 := by
  simp [isDigit, Char.le_def, UInt32.le_iff_toNat_le]

theorem isLetter_iff {c : Char} : isLetter c = true ↔
    (65 ≤ c.toNat ∧ c.toNat ≤ 90) ∨ (97 ≤ c.toNat ∧ c.toNat ≤ 122) := by
  simp [isLetter, isCapital, Char.le_def, UInt32.le_iff_toNat_le]

theorem isCapital_of_isDigit {c : Char} (h : isDigit c = true) : isCapital c = false := by
  rw [isDigit_iff] at h
  rw [Bool.eq_false_iff, Ne, isCapital_iff]
  omega

theorem isLetter_of_isCapital {c : Char} (h : isCapital c = true) : isLetter c = true := by
  simp [isLetter, h]

theorem isLetter_of_isDigit {c : Char} (h : isDigit c = true) : isLetter c = false := by
  rw [isDigit_iff] at h
  rw [Bool.eq_false_iff, Ne, isLetter_iff]
  omega

/-- The capital of a small letter stands thirty-two places before it, and any other
character is its own capital. -/
theorem toUpper_spec (c : Char) :
    (97 ≤ c.toNat ∧ c.toNat ≤ 122 ∧ c.toUpper.toNat + 32 = c.toNat) ∨
      (¬ (97 ≤ c.toNat ∧ c.toNat ≤ 122) ∧ c.toUpper = c) := by
  have hall : ∀ n < 123, 97 ≤ n → (Char.ofNat n).toUpper.toNat + 32 = n := by decide
  by_cases hsmall : 97 ≤ c.toNat ∧ c.toNat ≤ 122
  · have hupper := hall c.toNat (by omega) hsmall.1
    rw [Char.ofNat_toNat] at hupper
    exact .inl ⟨hsmall.1, hsmall.2, hupper⟩
  · refine .inr ⟨hsmall, dif_neg ?_⟩
    rwa [UInt32.le_iff_toNat_le, UInt32.le_iff_toNat_le]

theorem toUpper_of_toNat_le {c : Char} (h : c.toNat ≤ 90) : c.toUpper = c := by
  rcases toUpper_spec c with ⟨hlow, -, -⟩ | ⟨-, hself⟩
  · omega
  · exact hself

theorem toUpper_toUpper (c : Char) : c.toUpper.toUpper = c.toUpper := by
  rcases toUpper_spec c with ⟨hlow, hhigh, hupper⟩ | ⟨-, hself⟩
  · exact toUpper_of_toNat_le (by omega)
  · rw [hself, hself]

theorem isLetter_of_toUpper {c : Char} (h : isLetter c.toUpper = true) : isLetter c = true := by
  rcases toUpper_spec c with ⟨hlow, hhigh, -⟩ | ⟨-, hself⟩
  · exact isLetter_iff.2 (.inr ⟨hlow, hhigh⟩)
  · rwa [hself] at h

theorem toUpper_of_isDigit_toUpper {c : Char} (h : isDigit c.toUpper = true) : c.toUpper = c := by
  rcases toUpper_spec c with ⟨hlow, hhigh, hupper⟩ | ⟨-, hself⟩
  · rw [isDigit_iff] at h
    omega
  · exact hself

theorem upperChar_of_toNat_le {c : Char} (h : c.toNat ≤ 90) : upperChar c = [c] := by
  have hascii : c.toNat < 0x80 := by omega
  rw [upperChar, if_pos hascii, toUpper_of_toNat_le h]

theorem upperChar_of_isCapital {c : Char} (h : isCapital c = true) : upperChar c = [c] :=
  upperChar_of_toNat_le (isCapital_iff.1 h).2

theorem upperChar_of_isDigit {c : Char} (h : isDigit c = true) : upperChar c = [c] := by
  rw [isDigit_iff] at h
  exact upperChar_of_toNat_le (by omega)

theorem upper_eq_self {cs : List Char} (h : ∀ c ∈ cs, upperChar c = [c]) : upper cs = cs := by
  induction cs with
  | nil => rfl
  | cons c cs ih =>
    rw [upper_cons, h c List.mem_cons_self, ih (fun d hd => h d (List.mem_cons_of_mem c hd))]
    rfl

theorem isBlank_of_ascii {c : Char} (h : 33 ≤ c.toNat) (h' : c.toNat < 128) : isBlank c = false := by
  simp only [isBlank]
  generalize c.toNat = n at h h'
  simp only [Bool.or_eq_false_iff, Bool.and_eq_false_iff, beq_eq_false_iff_ne,
    decide_eq_false_iff_not]
  omega

theorem isBlank_of_isLetter {c : Char} (h : isLetter c = true) : isBlank c = false := by
  rw [isLetter_iff] at h
  exact isBlank_of_ascii (by omega) (by omega)

theorem isBlank_of_isCapital {c : Char} (h : isCapital c = true) : isBlank c = false :=
  isBlank_of_isLetter (isLetter_of_isCapital h)

theorem isBlank_of_isDigit {c : Char} (h : isDigit c = true) : isBlank c = false := by
  rw [isDigit_iff] at h
  exact isBlank_of_ascii (by omega) (by omega)

def wideBlanks : List Nat :=
  [0x85, 0xA0, 0x1680, 0x2000, 0x2001, 0x2002, 0x2003, 0x2004, 0x2005, 0x2006, 0x2007, 0x2008, 0x2009,
    0x200A, 0x2028, 0x2029, 0x202F, 0x205F, 0x3000]

theorem upperChar_of_isBlank {c : Char} (h : isBlank c = true) : upperChar c = [c] := by
  have hwide : ∀ n ∈ wideBlanks, mapped upperExpansions upperRuns n = [Char.ofNat n] := by decide +kernel
  by_cases hascii : c.toNat < 0x80
  · have hsmall : c.toNat ≤ 90 := by
      refine Nat.le_of_not_lt fun hlarge => ?_
      rw [isBlank_of_ascii (by omega) (by omega)] at h
      cases h
    exact upperChar_of_toNat_le hsmall
  · have hmem : c.toNat ∈ wideBlanks := by
      simp only [isBlank, Bool.or_eq_true, Bool.and_eq_true, beq_iff_eq, decide_eq_true_eq] at h
      simp only [wideBlanks, List.mem_cons, List.not_mem_nil, or_false]
      omega
    rw [upperChar, if_neg hascii, hwide _ hmem, Char.ofNat_toNat]

theorem split_append {p : Char → Bool} {cs rest : List Char} (hcs : ∀ c ∈ cs, p c = true)
    (hrest : ∀ c ∈ rest.head?, p c = false) :
    (cs ++ rest).takeWhile p = cs ∧ (cs ++ rest).dropWhile p = rest := by
  rw [List.takeWhile_append_of_pos hcs, List.dropWhile_append_of_pos hcs]
  cases rest with
  | nil => simp
  | cons c rest => simp [hrest c rfl]

theorem trimStart_eq_self {cs : List Char} (h : ∀ c ∈ cs.head?, isBlank c = false) : trimStart cs = cs := by
  cases cs with
  | nil => rfl
  | cons c cs => simp [trimStart, h c (by simp)]

theorem dropEndWhile_eq_self {p : Char → Bool} {cs : List Char} (h : ∀ c ∈ cs.getLast?, p c = false) :
    dropEndWhile p cs = cs := by
  rw [dropEndWhile, List.reverse_eq_iff]
  rw [← List.head?_reverse] at h
  cases hrev : cs.reverse with
  | nil => rfl
  | cons c rest => simp [h c (by rw [hrev]; rfl)]

theorem trim_eq_self {cs : List Char} (hhead : ∀ c ∈ cs.head?, isBlank c = false)
    (hlast : ∀ c ∈ cs.getLast?, isBlank c = false) : trim cs = cs := by
  rw [trim, trimStart_eq_self hhead, trimEnd, dropEndWhile_eq_self hlast]

theorem trim_eq_self_of_forall {cs : List Char} (h : ∀ c ∈ cs, isBlank c = false) : trim cs = cs :=
  trim_eq_self (fun c hc => h c (List.mem_of_mem_head? hc)) (fun c hc => h c (List.mem_of_mem_getLast? hc))

/-- What is left of a text starts where it starts without the blanks in
front. -/
theorem head?_trimStart {cs : List Char} {c : Char} (h : (trim cs).head? = some c) :
    (trimStart cs).head? = some c := by
  rw [trim, trimEnd] at h
  rw [← dropEndWhile_append isBlank (trimStart cs), List.head?_append, h, Option.some_or]

theorem head?_trim {cs : List Char} {c : Char} (h : (trim cs).head? = some c) : isBlank c = false := by
  have hstart := head?_trimStart h
  rw [trimStart] at hstart
  have := List.head?_dropWhile_not isBlank cs
  rw [hstart] at this
  simpa using this

theorem getLast?_trim {cs : List Char} {c : Char} (h : (trim cs).getLast? = some c) :
    isBlank c = false := by
  rw [trim, trimEnd, dropEndWhile, List.getLast?_reverse] at h
  have := List.head?_dropWhile_not isBlank (trimStart cs).reverse
  rw [h] at this
  simpa using this

theorem dropWhile_append_cons {p : Char → Bool} {c : Char} (hc : p c = false) (cs ds : List Char) :
    (cs ++ c :: ds).dropWhile p = cs.dropWhile p ++ c :: ds := by
  rw [List.dropWhile_append, List.dropWhile_cons_of_neg (by simp [hc])]
  split
  · rename_i hnil
    rw [List.isEmpty_iff.1 hnil, List.nil_append]
  · rfl

theorem trimEnd_append_cons {c : Char} (hc : isBlank c = false) (cs ds : List Char) :
    trimEnd (cs ++ c :: ds) = cs ++ c :: trimEnd ds := by
  rw [trimEnd, dropEndWhile, List.reverse_append, List.reverse_cons, List.append_assoc, List.singleton_append,
    dropWhile_append_cons hc]
  simp [trimEnd, dropEndWhile]

theorem trim_append_cons {c : Char} (hc : isBlank c = false) (cs ds : List Char) :
    trim (cs ++ c :: ds) = trimStart cs ++ c :: trimEnd ds := by
  rw [trim, trimStart, dropWhile_append_cons hc, trimEnd_append_cons hc, trimStart]

theorem trimEnd_cons {c : Char} (hc : isBlank c = false) (cs : List Char) :
    trimEnd (c :: cs) = c :: trimEnd cs :=
  trimEnd_append_cons hc [] cs

theorem trim_cons {c : Char} (hc : isBlank c = false) (cs : List Char) :
    trim (c :: cs) = c :: trimEnd cs :=
  trim_append_cons hc [] cs

theorem trim_cons_ne_nil {c : Char} (hc : isBlank c = false) (cs : List Char) :
    trim (c :: cs) ≠ [] := by
  rw [trim_cons hc]
  exact List.cons_ne_nil c _

theorem trimEnd_eq_self_iff {cs : List Char} :
    trimEnd cs = cs ↔ cs.getLast?.any isBlank = false := by
  rw [trimEnd, dropEndWhile, List.reverse_eq_iff, ← List.head?_reverse]
  cases cs.reverse with
  | nil => simp
  | cons d ds =>
    rw [List.head?_cons, Option.any_some]
    cases hd : isBlank d with
    | false => simp [hd]
    | true =>
      simp only [List.dropWhile_cons, hd, if_true, reduceCtorEq, iff_false]
      intro heq
      have hle := (List.dropWhile_sublist isBlank (l := ds)).length_le
      rw [heq, List.length_cons] at hle
      omega

theorem trim_trim (cs : List Char) : trim (trim cs) = trim cs :=
  trim_eq_self (fun _ hc => head?_trim hc) (fun _ hc => getLast?_trim hc)

end Text

end Spreadsheet

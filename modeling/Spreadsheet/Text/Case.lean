import Spreadsheet.Text.CaseMapping
import Spreadsheet.Text.WordContext

/-
  Upper and lower case of whole texts, by the full Unicode mappings.

  Upper case is decided character by character. Lower case is too, with one
  exception: a capital sigma at the end of a word becomes the final form of
  the small sigma. "At the end of a word" is a statement about the nearest
  character on either side that is not case-ignorable: there is a cased one
  before and none after.
-/

namespace Spreadsheet.Text

/-- The image of a code point outside ASCII: its expansion where it has one,
else where the runs send it. -/
def mapped (expansions : List (Nat × List Nat)) (runs : List CaseRun) (n : Nat) : List Char :=
  match expansions.lookup n with
  | some ns => ns.map Char.ofNat
  | none => [Char.ofNat (shifted runs n)]

/-- The upper case of one character, up to three characters long. -/
def upperChar (c : Char) : List Char :=
  if c.toNat < 0x80 then [c.toUpper] else mapped upperExpansions upperRuns c.toNat

/-- The lower case of one character wherever it stands. -/
def lowerChar (c : Char) : List Char :=
  if c.toNat < 0x80 then [c.toLower] else mapped lowerExpansions lowerRuns c.toNat

/-- The upper case of a text. -/
def upper (cs : List Char) : List Char := cs.flatMap upperChar

/-- Whether the first character that is not case-ignorable is cased. -/
def meetsCased (cs : List Char) : Bool :=
  match cs.dropWhile fun c => inRanges caseIgnorableRanges c.toNat with
  | c :: _ => inRanges casedRanges c.toNat
  | [] => false

/-- The small sigma for a capital one: the final form after a cased letter
with none to follow. `before` is read backwards. -/
def smallSigma (before after : List Char) : Char :=
  if meetsCased before && !meetsCased after then 'ς' else 'σ'

/-- The lower case of the rest of a text, given what precedes it backwards. -/
def lowerAfter (before : List Char) : List Char → List Char
  | [] => []
  | c :: cs =>
    if c = 'Σ' then smallSigma before cs :: lowerAfter (c :: before) cs
    else lowerChar c ++ lowerAfter (c :: before) cs

def lower (cs : List Char) : List Char := lowerAfter [] cs

def uppercased (s : String) : String := String.ofList (upper s.toList)

@[simp] theorem upper_nil : upper [] = [] := rfl

@[simp] theorem upper_cons (c : Char) (cs : List Char) :
    upper (c :: cs) = upperChar c ++ upper cs := rfl

@[simp] theorem upper_append (cs ds : List Char) : upper (cs ++ ds) = upper cs ++ upper ds :=
  List.flatMap_append

end Spreadsheet.Text

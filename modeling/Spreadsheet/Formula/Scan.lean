import Spreadsheet.Text.Blank
import Spreadsheet.Text.Word

/-
  Scanning an expression from left to right.

  Quotes and parentheses hide what they enclose. A scan keeps track of both, so
  that a separator or an operator counts only where it is exposed: outside
  quotes and at depth zero. The depth of a malformed text may become negative,
  and nothing is exposed while it is.
-/

namespace Spreadsheet.Formula

/-- The character around a text literal. -/
def quoteMark : Char := '\x22'

/-- Where a scan stands: how many parentheses are open, and whether it is
inside a text literal. The depth has no limits here; a counter of 32 bits is the
same in texts with fewer than `2 ^ 31` parentheses. -/
structure Scan where
  depth : Int
  quoted : Bool
  deriving DecidableEq, Repr

namespace Scan

def start : Scan := ⟨0, false⟩

/-- The scan after one more character. -/
def next (s : Scan) (c : Char) : Scan :=
  if c = quoteMark then { s with quoted := !s.quoted }
  else if s.quoted then s
  else if c = '(' then { s with depth := s.depth + 1 }
  else if c = ')' then { s with depth := s.depth - 1 }
  else s

def after (s : Scan) (cs : List Char) : Scan := cs.foldl next s

/-- Whether the next character is exposed. Quotes and parentheses never are. -/
def exposes (s : Scan) (c : Char) : Bool :=
  !s.quoted && s.depth == 0 && c != quoteMark && c != '(' && c != ')'

/-- The characters of a text, each with whether it is exposed. -/
def mark (s : Scan) : List Char → List (Char × Bool)
  | [] => []
  | c :: cs => (c, s.exposes c) :: mark (s.next c) cs

@[simp] theorem map_fst_mark (s : Scan) (cs : List Char) : (s.mark cs).map Prod.fst = cs := by
  induction cs generalizing s with
  | nil => rfl
  | cons c cs ih => simp [mark, ih]

/-- A scan of two texts in a row is a scan of the second from where the first
one ends. -/
theorem mark_append (s : Scan) (cs ds : List Char) :
    s.mark (cs ++ ds) = s.mark cs ++ (s.after cs).mark ds := by
  induction cs generalizing s with
  | nil => rfl
  | cons c cs ih => simp [mark, after, ih]

end Scan

/-- What precedes and what follows the parenthesis that closes one opened just
before the text. `depth` counts the parentheses opened since, without a limit as
in a `Scan`, and `quoted` says whether the text starts inside a literal. -/
def closing (depth : Nat) (quoted : Bool) : List Char → Option (List Char × List Char)
  | [] => none
  | c :: cs =>
    let keep := fun (p : List Char × List Char) => (c :: p.1, p.2)
    if c = quoteMark then (closing depth (!quoted) cs).map keep
    else if quoted then (closing depth quoted cs).map keep
    else if c = '(' then (closing (depth + 1) quoted cs).map keep
    else if c = ')' then
      match depth with
      | 0 => some ([], cs)
      | depth + 1 => (closing depth quoted cs).map keep
    else (closing depth quoted cs).map keep

/-- The inside of a text that is one pair of parentheses from its first
character to its last. -/
def group? : List Char → Option (List Char)
  | '(' :: cs =>
    match closing 0 false cs with
    | some (inside, []) => some inside
    | _ => none
  | _ => none

/-- The characters of a function's name after its first, which is a capital. -/
def isNameChar (c : Char) : Bool := Text.isCapital c || Text.isDigit c || c == '_' || c == '.'

/-- The name and the argument text of a call that spans the whole text. -/
def call? (cs : List Char) : Option (List Char × List Char) :=
  if cs.head?.any Text.isCapital then
    (group? (cs.dropWhile isNameChar)).map fun inside => (cs.takeWhile isNameChar, inside)
  else none

/-- A marked text cut at the exposed occurrences of a separator. -/
def cutAt (separator : Char) : List (Char × Bool) → List (List Char)
  | [] => [[]]
  | (c, exposed) :: cs =>
    if exposed && c == separator then [] :: cutAt separator cs
    else match cutAt separator cs with
      | piece :: pieces => (c :: piece) :: pieces
      | [] => [[c]]

/-- The arguments in the text between the parentheses of a call: the pieces
between exposed commas, and none if the text is blank. -/
def arguments (text : List Char) : List (List Char) :=
  if (Text.trim text).isEmpty then []
  else (cutAt ',' (Scan.start.mark text)).map Text.trim

end Spreadsheet.Formula

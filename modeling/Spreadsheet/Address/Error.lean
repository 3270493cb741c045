/-
  Why a text names no cell and no range of cells, and how that is worded.

  The wording quotes the text that was read, so each cause carries it. A range
  is refused because one of its corners is.
-/

namespace Spreadsheet

/-- Why a text names no cell. -/
inductive AddressError where
  /-- No letters where a column was expected. -/
  | noLetters
  /-- A character among the letters of a column that is none. -/
  | notALetter (c : Char)
  /-- Letters that name a column past the last one. -/
  | columnTooLarge (letters : String)
  /-- A text that does not start with the letters of a column. -/
  | noColumn (text : String)
  /-- A text whose letters are not followed by a row number and nothing else. -/
  | badRow (text : String)
  /-- A row number that is zero or past the last row. -/
  | rowOutOfRange (text : String)
  deriving DecidableEq, Repr

/-- What is wrong, without saying that it is an address. -/
def AddressError.detail : AddressError → String
  | .noLetters => "empty column letters"
  | .notALetter c => "invalid column letter '" ++ c.toString ++ "'"
  | .columnTooLarge letters => "column '" ++ letters ++ "' is too large"
  | .noColumn text => "no column letters in '" ++ text ++ "'"
  | .badRow text => "invalid row number in '" ++ text ++ "'"
  | .rowOutOfRange text => "row number out of range in '" ++ text ++ "'"

def AddressError.message (e : AddressError) : String := "Invalid cell address: " ++ e.detail

/-- Why a text names no cell or range of cells. -/
inductive ReferenceError where
  /-- The text is no address. -/
  | address (cause : AddressError)
  /-- The text has two corners, and one of them is no address. -/
  | range (text : String) (cause : AddressError)
  deriving DecidableEq, Repr

def ReferenceError.message : ReferenceError → String
  | .address cause => cause.message
  | .range text cause => "Invalid cell range: '" ++ text ++ "': " ++ cause.message

end Spreadsheet

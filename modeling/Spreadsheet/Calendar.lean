import Spreadsheet.Text.Blank
import Spreadsheet.Text.Word

/-
  Dates of the proleptic Gregorian calendar and their notation, and clocks.

  A `Date` is a day that exists. It is written year, month, day with hyphens
  between them: the years 0 to 9999 with four digits, every other year with a
  sign and at least four. Reading is more lenient than writing: blanks may
  stand before each number, month and day may have one digit, and a year may
  have any number of digits after a sign but at most four without one.

  A clock is asked for the time again and again, and may read another moment each
  time.
-/

namespace Spreadsheet

open Text (isDigit natOfDigits paddedDigits trimStart)

def isLeapYear (year : Int) : Bool := year % 4 == 0 && (year % 100 != 0 || year % 400 == 0)

/-- The number of days in a month, and none in a month that does not exist. -/
def daysInMonth (year : Int) (month : Nat) : Nat :=
  match month with
  | 1 | 3 | 5 | 7 | 8 | 10 | 12 => 31
  | 4 | 6 | 9 | 11 => 30
  | 2 => if isLeapYear year then 29 else 28
  | _ => 0

/-- Whether the day exists and its year is one the calendar reaches. -/
def isDay (year : Int) (month day : Nat) : Bool :=
  -262143 ≤ year && year ≤ 262142 && 1 ≤ day && day ≤ daysInMonth year month

structure Date where
  year : Int
  month : Nat
  day : Nat
  exists_day : isDay year month day = true
  deriving DecidableEq

namespace Date

/-- The day with the given numbers, if there is one. A negative month or day
counts as zero, which none exists for. -/
def ofNumbers? (year month day : Int) : Option Date :=
  if h : isDay year month.toNat day.toNat = true then
    some ⟨year, month.toNat, day.toNat, h⟩
  else none

def yearText (year : Int) : List Char :=
  if 0 ≤ year && year ≤ 9999 then paddedDigits 4 year.natAbs
  else (if year < 0 then '-' else '+') :: paddedDigits 4 year.natAbs

def text (d : Date) : List Char :=
  yearText d.year ++ '-' :: paddedDigits 2 d.month ++ '-' :: paddedDigits 2 d.day

/-- The number a text starts with, taken from its leading digits, and the text
after them. A width limits how many digits are taken. -/
def readNumber (width : Option Nat) (cs : List Char) : Option (Nat × List Char) :=
  let ds := cs.takeWhile isDigit
  let ds := match width with
    | some n => ds.take n
    | none => ds
  if ds.isEmpty then none else some (natOfDigits ds, cs.drop ds.length)

/-- The year a text starts with, blanks before it aside. -/
def readYear (cs : List Char) : Option (Int × List Char) :=
  match trimStart cs with
  | '-' :: rest => (readNumber none rest).map fun (n, cs) => (-(n : Int), cs)
  | '+' :: rest => (readNumber none rest).map fun (n, cs) => ((n : Int), cs)
  | rest => (readNumber (some 4) rest).map fun (n, cs) => ((n : Int), cs)

/-- The month or day after a hyphen, blanks before it aside. -/
def readPart : List Char → Option (Nat × List Char)
  | '-' :: cs => readNumber (some 2) (trimStart cs)
  | _ => none

/-- The date a text denotes, if the whole text is one. -/
def ofText? (cs : List Char) : Option Date := do
  let (year, cs) ← readYear cs
  let (month, cs) ← readPart cs
  let (day, cs) ← readPart cs
  if cs.isEmpty then ofNumbers? year month day else none

end Date

/-- A date and a time of day to the second. -/
structure Moment where
  date : Date
  hour : Nat
  minute : Nat
  second : Nat

/-- The text of a moment: the date, a space, and the time with two digits for
each part. -/
def Moment.text (m : Moment) : List Char :=
  m.date.text ++ ' ' :: paddedDigits 2 m.hour ++ ':' :: paddedDigits 2 m.minute ++
    ':' :: paddedDigits 2 m.second

/-- A clock, by what it reads the first time it is asked, the second time, and so
on. -/
structure Clock where
  reading : Nat → Moment

def Clock.fixed (now : Moment) : Clock := ⟨fun _ => now⟩

instance : Coe Moment Clock := ⟨Clock.fixed⟩

end Spreadsheet

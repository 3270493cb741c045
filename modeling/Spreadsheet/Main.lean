import Std.Time.Zoned
import Spreadsheet.CommandLine

/-
  The program: reads the clock and the arguments, each once, and prints what the
  command line makes of them.
-/

open Spreadsheet

/-- The moment a local date and time denote. A time the calendar does not reach
counts as the first day of the year zero. -/
def momentOf (t : Std.Time.PlainDateTime) : Moment where
  date := (Date.ofNumbers? t.date.year.toInt t.date.month.val t.date.day.val).getD
    ⟨0, 1, 1, by decide⟩
  hour := t.time.hour.val.toNat
  minute := t.time.minute.val.toNat
  second := t.time.second.val.toNat

def main (args : List String) : IO UInt32 := do
  match CommandLine.parse? args with
  | none =>
    IO.eprintln "usage: eval FORMULA | grid"
    return CommandLine.usageCode
  | some command =>
    let output := command.run (momentOf (← Std.Time.PlainDateTime.now))
    IO.print output.out
    IO.eprint output.err
    return output.code

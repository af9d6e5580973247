import OperationFeed.Toml.Grammar

/-!
# Dates and times

A moment is a date, a time of day, or both, and in the last case may have a distance from universal
time. Dates that the calendar does not have are refused.
-/

namespace OperationFeed.Toml

open Scan

/-- A number of as many digits as asked for, between two bounds. -/
def boundedNumber (digits low high : Nat) : Scan Nat := do
  let n := digitsValue 10 (← exactly isDigit digits)
  if low ≤ n && n ≤ high then return n else failure

/-- Whether a year has a 29th of February. -/
def isLeapYear (year : Nat) : Bool :=
  year % 4 == 0 && (year % 100 != 0 || year % 400 == 0)

/-- The number of days of a month. -/
def daysInMonth (year month : Nat) : Nat :=
  if month == 2 then (if isLeapYear year then 29 else 28)
  else if [4, 6, 9, 11].contains month then 30
  else 31

/-- A date. -/
def date : Scan Unit := do
  let year ← boundedNumber 4 0 9999
  char '-'
  let month ← boundedNumber 2 1 12
  char '-'
  let _ ← boundedNumber 2 1 (daysInMonth year month)

/-- A time of day; a minute may have a leap second. -/
def timeOfDay : Scan Unit := do
  let _ ← boundedNumber 2 0 23
  char ':'
  let _ ← boundedNumber 2 0 59
  char ':'
  let _ ← boundedNumber 2 0 60
  let _ ← opt (do
    char '.'
    let _ ← satisfy isDigit
    takeWhile isDigit)

/-- The distance of local time from universal time. -/
def timeOffset : Scan Unit := do
  match ← satisfy (fun c => ['Z', 'z', '+', '-'].contains c) with
  | 'Z' | 'z' => return
  | _ =>
    let _ ← boundedNumber 2 0 23
    char ':'
    let _ ← boundedNumber 2 0 59

/-- The time of day that may follow a date. -/
def timeAfterDate : Scan Unit := do
  let _ ← satisfy (fun c => ['T', 't', ' '].contains c)
  timeOfDay
  let _ ← opt timeOffset

/-- A date, a date and a time of day, or a time of day. -/
def moment : Scan Unit :=
  (do date; let _ ← opt timeAfterDate) <|> timeOfDay

end OperationFeed.Toml

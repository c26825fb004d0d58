import Sandbox.Disk

/-!
# Calendar dates

The date of a day is found by eras of 400 years, which all have the same number of days, with years that
begin in March so that the day of a leap year comes last.
-/

namespace Sandbox

/-- A date of the Gregorian calendar. -/
structure Date where
  year : Int
  month : Nat
  day : Nat
  deriving DecidableEq, Repr

namespace Date

/-- The number of days in a month of a year. -/
def daysIn (year month : Nat) : Nat :=
  if month = 2 then
    if year % 4 = 0 ∧ (year % 100 ≠ 0 ∨ year % 400 = 0) then 29 else 28
  else if [4, 6, 9, 11].contains month then 30
  else 31

/-- The days of an era. -/
def daysInEra : Nat := 146097

/-- The days from the first of March of the year 0 to the start of time. -/
def daysToEpoch : Nat := 719468

/-- The date of a day, counted from the start of time. -/
def ofDay (day : Int) : Date :=
  let day := day + daysToEpoch
  let era := day.fdiv daysInEra
  let inEra := (day.fmod daysInEra).toNat
  let year := (inEra - inEra / 1460 + inEra / 36524 - inEra / 146096) / 365
  let inYear := inEra - (365 * year + year / 4 - year / 100)
  let march := (5 * inYear + 2) / 153
  let month := if march < 10 then march + 3 else march - 9
  let year := (year : Int) + era * 400 + if month ≤ 2 then 1 else 0
  ⟨year, month, inYear - (153 * march + 2) / 5 + 1⟩

/-- A number with at least so many digits. -/
def padded (count n : Nat) : String :=
  let digits := toString n
  String.ofList (List.replicate (count - digits.length) '0') ++ digits

/-- The text of a year: four digits, and a sign where these do not tell it. -/
def yearText (year : Int) : String :=
  if year < 0 then "-" ++ padded 4 year.natAbs
  else if year > 9999 then "+" ++ padded 4 year.natAbs
  else padded 4 year.natAbs

/-- The text of a date. -/
def toText (d : Date) : String := s!"{yearText d.year}-{padded 2 d.month}-{padded 2 d.day}"

end Date

/-- The date and the time of the day, in universal time. -/
def Timestamp.calendarText (t : Timestamp) : String :=
  let day := t.seconds.fdiv 86400
  let second := (t.seconds.fmod 86400).toNat
  let hour := Date.padded 2 (second / 3600)
  let minute := Date.padded 2 (second / 60 % 60)
  s!"{(Date.ofDay day).toText} {hour}:{minute}:{Date.padded 2 (second % 60)}"

end Sandbox

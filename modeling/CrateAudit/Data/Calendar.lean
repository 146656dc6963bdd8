/-
This file turns a count of seconds since the start of 1970 into a date and a time of
day, and writes it as the time of a report. Days are counted in eras of four hundred
years that start in March, so that a leap day is the last day of its year.
-/

import CrateAudit.Data.Moment

namespace CrateAudit.Calendar

/-- The days from the first of March of the year zero to the start of 1970. -/
def daysBeforeEpoch : Nat := 719468

/-- The days of an era. -/
def eraDays : Nat := 146097

/-- The year of an era that a day of the era lies in. -/
def yearOfEra (day : Nat) : Nat :=
  (day - day / 1460 + day / 36524 - day / 146096) / 365

/-- The days from the first of March of the year zero to the same day of a year. -/
def yearStart (year : Nat) : Nat :=
  365 * year + year / 4 - year / 100 + year / 400

/-- The date of a day of a year that starts in March. -/
def dateInYear (year day : Nat) : Date :=
  let month := (5 * day + 2) / 153
  { year := if month < 10 then year else year + 1
    month := if month < 10 then month + 3 else month - 9
    day := day - (153 * month + 2) / 5 + 1 }

/-- The date that lies a number of days after the start of 1970. -/
def dateOfDay (days : Nat) : Date :=
  let shifted := days + daysBeforeEpoch
  let day := shifted % eraDays
  let year := yearOfEra day
  dateInYear (400 * (shifted / eraDays) + year) (day - yearStart year)

/-- The time of day that lies a number of seconds after midnight. -/
def timeOfSecond (seconds : Nat) : TimeOfDay :=
  ⟨seconds / 3600, seconds / 60 % 60, seconds % 60, 0⟩

/-- The time of a report that is made a number of seconds after the start of 1970. -/
def reportTime (seconds : Nat) : String :=
  Moment.dateText (dateOfDay (seconds / 86400)) ++ "T" ++
    Moment.timeText (timeOfSecond (seconds % 86400)) ++ "+00:00"

end CrateAudit.Calendar

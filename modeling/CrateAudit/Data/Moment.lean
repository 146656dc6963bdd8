/-
This file holds the dates and times that a settings file may contain, and the two
ways a message shows one: plainly, and as a constructor call.
-/

namespace CrateAudit

/-- A day of the calendar. -/
structure Date where
  year : Nat
  month : Nat
  day : Nat
  deriving DecidableEq, Repr

def isLeapYear (year : Nat) : Bool :=
  (year % 4 == 0 && year % 100 != 0) || year % 400 == 0

def daysOfMonth (year month : Nat) : Nat :=
  if month = 2 then (if isLeapYear year then 29 else 28)
  else if month = 4 ∨ month = 6 ∨ month = 9 ∨ month = 11 then 30
  else 31

/-- A time of day, to the microsecond. -/
structure TimeOfDay where
  hour : Nat
  minute : Nat
  second : Nat
  microsecond : Nat
  deriving DecidableEq, Repr

/-- A date, a time, or both. With both there may be an offset from universal time; it is
written `Z` or as a count of minutes. -/
inductive Moment where
  | day (date : Date)
  | clock (time : TimeOfDay)
  | both (date : Date) (time : TimeOfDay)
  | universal (date : Date) (time : TimeOfDay)
  | offset (date : Date) (time : TimeOfDay) (minutes : Int)
  deriving DecidableEq, Repr

namespace Moment

/-- A number with leading zeros up to `width` digits. -/
def padded (width number : Nat) : String :=
  let digits := Nat.toDigits 10 number
  String.ofList (List.replicate (width - digits.length) '0' ++ digits)

def dateText (date : Date) : String :=
  padded 4 date.year ++ "-" ++ padded 2 date.month ++ "-" ++ padded 2 date.day

/-- The microseconds are left out when there are none. -/
def timeText (time : TimeOfDay) : String :=
  padded 2 time.hour ++ ":" ++ padded 2 time.minute ++ ":" ++ padded 2 time.second ++
    (if time.microsecond == 0 then "" else "." ++ padded 6 time.microsecond)

def offsetText (minutes : Int) : String :=
  (if minutes < 0 then "-" else "+") ++ padded 2 (minutes.natAbs / 60) ++ ":" ++
    padded 2 (minutes.natAbs % 60)

/-- The moment as it is usually written. -/
def text : Moment → String
  | .day date => dateText date
  | .clock time => timeText time
  | .both date time => dateText date ++ " " ++ timeText time
  | .universal date time => dateText date ++ " " ++ timeText time ++ "+00:00"
  | .offset date time minutes => dateText date ++ " " ++ timeText time ++ offsetText minutes

def dateParts (date : Date) : List String :=
  [toString date.year, toString date.month, toString date.day]

/-- Hour and minute, then the second and the microsecond unless all that follows is zero. -/
def timeParts (time : TimeOfDay) : List String :=
  let always := [toString time.hour, toString time.minute]
  if time.microsecond != 0 then always ++ [toString time.second, toString time.microsecond]
  else if time.second != 0 then always ++ [toString time.second]
  else always

/-- A span of minutes as whole days and the seconds that remain, which are never negative. -/
def spanText (minutes : Int) : String :=
  let seconds := minutes * 60
  let days := seconds / 86400
  let rest := seconds % 86400
  let parts := (if days == 0 then [] else ["days=" ++ toString days]) ++
    (if rest == 0 then [] else ["seconds=" ++ toString rest])
  "datetime.timedelta(" ++ (if parts.isEmpty then "0" else ", ".intercalate parts) ++ ")"

def call (name : String) (arguments : List String) : String :=
  name ++ "(" ++ ", ".intercalate arguments ++ ")"

/-- The moment as a constructor call. -/
def constructorText : Moment → String
  | .day date => call "datetime.date" (dateParts date)
  | .clock time => call "datetime.time" (timeParts time)
  | .both date time => call "datetime.datetime" (dateParts date ++ timeParts time)
  | .universal date time =>
    call "datetime.datetime" (dateParts date ++ timeParts time ++ ["tzinfo=datetime.timezone.utc"])
  | .offset date time minutes =>
    let zone := if minutes == 0 then "datetime.timezone.utc"
      else "datetime.timezone(" ++ spanText minutes ++ ")"
    call "datetime.datetime" (dateParts date ++ timeParts time ++ ["tzinfo=" ++ zone])

end Moment

end CrateAudit

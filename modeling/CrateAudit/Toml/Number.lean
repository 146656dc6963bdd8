/-
This file reads the numbers, dates and times of a TOML document. Single underscores
may stand between digits. A date has to exist.
-/

import CrateAudit.Data.Value
import CrateAudit.Toml.Text

namespace CrateAudit.Toml

/-- The digits that follow a digit, with single underscores between them left out. -/
def moreDigits (isDigit : Char → Bool) : List Char → List Char × List Char
  | [] => ([], [])
  | '_' :: character :: rest =>
    if isDigit character then
      let later := moreDigits isDigit rest
      (character :: later.1, later.2)
    else ([], '_' :: character :: rest)
  | character :: rest =>
    if isDigit character then
      let later := moreDigits isDigit rest
      (character :: later.1, later.2)
    else ([], character :: rest)

/-- A run of digits, with single underscores between them left out. -/
def digitRun? (isDigit : Char → Bool) : List Char → Option (List Char × List Char)
  | [] => none
  | character :: rest =>
    if isDigit character then
      let later := moreDigits isDigit rest
      some (character :: later.1, later.2)
    else none

/-- The number with the given digits. -/
def numberOf (base : Nat) (digits : List Char) : Nat :=
  digits.foldl (fun number digit => number * base + (hexDigit? digit).getD 0) 0

/-- A whole number after its mark for the base. -/
def basedNumber? (base : Nat) (isDigit : Char → Bool) (text : List Char) :
    Option (Value × List Char) :=
  (digitRun? isDigit text).map fun part => (.integer (numberOf base part.1), part.2)

/-- The digits of a whole decimal number: a zero alone, or digits that start with no zero. -/
def wholeDigits? : List Char → Option (List Char × List Char)
  | '0' :: rest => some (['0'], rest)
  | text => digitRun? Char.isDigit text

/-- The digits after a point. -/
def fraction : List Char → List Char × List Char
  | '.' :: rest => (digitRun? Char.isDigit rest).getD ([], '.' :: rest)
  | text => ([], text)

/-- A sign, if there is one: whether it is a minus, and what follows. -/
def sign : List Char → Bool × List Char
  | '-' :: rest => (true, rest)
  | '+' :: rest => (false, rest)
  | text => (false, text)

/-- The power of ten after its mark. -/
def exponent? : List Char → Option (Int × List Char)
  | mark :: rest =>
    if mark = 'e' ∨ mark = 'E' then
      let (negative, digits) := sign rest
      (digitRun? Char.isDigit digits).map fun part =>
        let power : Int := numberOf 10 part.1
        (if negative then -power else power, part.2)
    else none
  | [] => none

/-- A decimal number; it is a whole one without fraction and exponent. -/
def decimal? (text : List Char) : Option (Value × List Char) := do
  let (negative, unsigned) := sign text
  let (whole, after) ← wholeDigits? unsigned
  let (places, after') := fraction after
  match exponent? after' with
  | some (power, rest) =>
    return (.float (.ofDecimal negative (numberOf 10 (whole ++ places)) (power - places.length)),
      rest)
  | none =>
    if places.isEmpty then
      let number : Int := numberOf 10 whole
      return (.integer (if negative then -number else number), after')
    else
      return (.float (.ofDecimal negative (numberOf 10 (whole ++ places)) (-places.length)),
        after')

/-- A number in any base. -/
def number? (text : List Char) : Option (Value × List Char) :=
  let based :=
    match text with
    | '0' :: 'x' :: rest => basedNumber? 16 (fun digit => (hexDigit? digit).isSome) rest
    | '0' :: 'b' :: rest => basedNumber? 2 (fun digit => digit == '0' || digit == '1') rest
    | '0' :: 'o' :: rest => basedNumber? 8 (fun digit => '0' ≤ digit && digit ≤ '7') rest
    | _ => none
  based.or (decimal? text)

/-- The numbers that have names. -/
def namedNumber? : List Char → Option (Value × List Char)
  | 'i' :: 'n' :: 'f' :: rest => some (.float (.infinite false), rest)
  | 'n' :: 'a' :: 'n' :: rest => some (.float .undefined, rest)
  | '+' :: 'i' :: 'n' :: 'f' :: rest => some (.float (.infinite false), rest)
  | '-' :: 'i' :: 'n' :: 'f' :: rest => some (.float (.infinite true), rest)
  | '+' :: 'n' :: 'a' :: 'n' :: rest => some (.float .undefined, rest)
  | '-' :: 'n' :: 'a' :: 'n' :: rest => some (.float .undefined, rest)
  | _ => none

/-! ### Dates and times -/

/-- A number of exactly `count` digits within bounds. -/
def fixedNumber? (count low high : Nat) (text : List Char) : Option (Nat × List Char) :=
  let digits := text.take count
  let number := numberOf 10 digits
  if digits.length = count ∧ digits.all Char.isDigit ∧ low ≤ number ∧ number ≤ high then
    some (number, text.drop count)
  else none

/-- Consumes one character. -/
def expect? (character : Char) : List Char → Option (List Char)
  | next :: rest => if next = character then some rest else none
  | [] => none

/-- The microseconds after a point; what is finer is dropped. -/
def microseconds (text : List Char) : Nat × List Char :=
  match text with
  | '.' :: rest =>
    let digits := rest.takeWhile Char.isDigit
    if digits.isEmpty then (0, text)
    else
      let six := digits.take 6
      (numberOf 10 (six ++ List.replicate (6 - six.length) '0'), rest.drop digits.length)
  | _ => (0, text)

def time? (text : List Char) : Option (TimeOfDay × List Char) := do
  let (hour, text) ← fixedNumber? 2 0 23 text
  let (minute, text) ← fixedNumber? 2 0 59 (← expect? ':' text)
  let (second, text) ← fixedNumber? 2 0 59 (← expect? ':' text)
  let (micro, text) := microseconds text
  return (⟨hour, minute, second, micro⟩, text)

def date? (text : List Char) : Option (Date × List Char) := do
  let (year, text) ← fixedNumber? 4 0 9999 text
  let (month, text) ← fixedNumber? 2 1 12 (← expect? '-' text)
  let (day, text) ← fixedNumber? 2 1 31 (← expect? '-' text)
  return (⟨year, month, day⟩, text)

/-- Whether a date is in the calendar, which starts with the year one. -/
def existsDate (date : Date) : Bool :=
  1 ≤ date.year && date.day ≤ daysOfMonth date.year date.month

/-- An offset from universal time in minutes. -/
def offset? (text : List Char) : Option (Int × List Char) :=
  match text with
  | mark :: rest => do
    if mark ≠ '+' ∧ mark ≠ '-' then none
    let (hours, rest) ← fixedNumber? 2 0 23 rest
    let (minutes, rest) ← fixedNumber? 2 0 59 (← expect? ':' rest)
    let span : Int := hours * 60 + minutes
    return (if mark = '-' then -span else span, rest)
  | [] => none

/-- The offset of a date and time, if one follows. -/
def withOffset (date : Date) (time : TimeOfDay) (text : List Char) : Moment × List Char :=
  match text with
  | 'Z' :: rest | 'z' :: rest => (.universal date time, rest)
  | _ =>
    match offset? text with
    | some (minutes, rest) => (.offset date time minutes, rest)
    | none => (.both date time, text)

/-- The time after a date, behind a `T` or a blank. -/
def timeAfterDate? : List Char → Option (TimeOfDay × List Char)
  | mark :: rest => if mark = 'T' ∨ mark = 't' ∨ mark = ' ' then time? rest else none
  | [] => none

/-- A date or a time or both. The first part of the answer tells whether the date exists. -/
def moment? (text : List Char) : Option (Bool × Moment × List Char) :=
  match date? text with
  | some (date, after) =>
    match timeAfterDate? after with
    | some (time, rest) => some (existsDate date, withOffset date time rest)
    | none => some (existsDate date, .day date, after)
  | none => (time? text).map fun part => (true, .clock part.1, part.2)

end CrateAudit.Toml

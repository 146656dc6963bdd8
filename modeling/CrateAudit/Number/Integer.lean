/-
This file reads a whole number from a text: blanks around it, a sign, then decimal
digits of any script with single underscores between them. A number of more than
4300 digits is neither read from a text nor written as one.
-/

import CrateAudit.Text.Blank
import CrateAudit.Text.Digit

namespace CrateAudit.Number

/-- A blank that may stand around a number: the ASCII separators may not. -/
def isNumberBlank (character : Char) : Bool :=
  Text.isBlank character && !(0x1C ≤ character.toNat && character.toNat ≤ 0x1F)

/-- The values of digits with single underscores between them. -/
def digitValues? : List Char → Option (List Nat)
  | [] => none
  | character :: rest => do
    let value ← Text.digitValue? character
    match rest with
    | [] => some [value]
    | '_' :: more => (digitValues? more).map (value :: ·)
    | more => (digitValues? more).map (value :: ·)

/-- The number whose decimal digits are `values`. -/
def ofDigits (values : List Nat) : Nat :=
  values.foldl (fun number value => number * 10 + value) 0

/-- The most digits that are read or written. -/
def mostDigits : Nat := 4300

/-- Whether a number has more digits than are written. -/
def isTooLong (number : Int) : Bool :=
  mostDigits < (Nat.toDigits 10 number.natAbs).length

/-- The complaint about a number that is too long. Where one is read, its digits are counted. -/
def tooLongMessage (digits : Option Nat) : String :=
  "Exceeds the limit (" ++ toString mostDigits ++ " digits) for integer string conversion" ++
    (match digits with
      | some count => ": value has " ++ toString count ++ " digits"
      | none => "") ++
    "; use sys.set_int_max_str_digits() to increase the limit"

/-- Reads an unsigned number. -/
def readNatural? (text : List Char) : Option Nat := do
  let values ← digitValues? text
  if mostDigits < values.length then none else some (ofDigits values)

/-- Reads a number. -/
def readInteger? (text : List Char) : Option Int :=
  match Text.trimBy isNumberBlank text with
  | '-' :: digits => (readNatural? digits).map fun number => -(number : Int)
  | '+' :: digits => (readNatural? digits).map Int.ofNat
  | digits => (readNatural? digits).map Int.ofNat

end CrateAudit.Number

/-
This file writes a binary64 number with the fewest decimal digits that read back
as the same number, and of those the digits nearest to it. Numbers from 10^-4 up
to below 10^16 are written positionally, with `.0` added to a whole one; the others
have an exponent with a sign and at least two digits.
-/

import CrateAudit.Number.Binary64

namespace CrateAudit.Binary64

/-- Whether a fraction is at least `10 ^ power`. -/
def reachesPower (numerator denominator : Nat) (power : Int) : Bool :=
  if 0 ≤ power then Nat.pow 10 power.toNat * denominator ≤ numerator
  else denominator ≤ numerator * Nat.pow 10 (-power).toNat

/-- The power of ten of the leading digit of a positive fraction, found by counting up
from `power`. -/
def leadingPowerFrom (numerator denominator : Nat) : Nat → Int → Int
  | 0, power => power
  | steps + 1, power =>
    if reachesPower numerator denominator (power + 1) then
      leadingPowerFrom numerator denominator steps (power + 1)
    else power

/-- The power of ten of the leading digit of a positive fraction. The guess from the binary
logarithms is never too high and at most three too low. -/
def leadingPower (numerator denominator : Nat) : Int :=
  let binary : Int := (numerator.log2 : Int) - denominator.log2 - 1
  leadingPowerFrom numerator denominator 4 (binary * 30103 / 100000 - 1)

/-- The fraction in units of `10 ^ power`. -/
def inUnits (numerator denominator : Nat) (power : Int) : Nat × Nat :=
  if 0 ≤ power then (numerator, denominator * Nat.pow 10 power.toNat)
  else (numerator * Nat.pow 10 (-power).toNat, denominator)

/-- The nearer of the two neighbours of the number on the grid of multiples of `10 ^ power`
that read back as the number, if one does. -/
def readsBackAt? (number : Binary64) (numerator denominator : Nat) (power : Int) : Option Nat :=
  let units := inUnits numerator denominator power
  let below := units.1 / units.2
  let nearest := roundDivide units.1 units.2
  let farther := if nearest == below then below + 1 else below
  if ofDecimal false nearest power = number then some nearest
  else if ofDecimal false farther power = number then some farther
  else none

/-- The digits and the power of ten of their last place, trying at `power` and then at lower
powers. -/
def shortestFrom (number : Binary64) (numerator denominator : Nat) :
    Nat → Int → Nat × Int
  | 0, power => ((inUnits numerator denominator power).1 / (inUnits numerator denominator power).2,
      power)
  | more + 1, power =>
    match readsBackAt? number numerator denominator power with
    | some digits => (digits, power)
    | none => shortestFrom number numerator denominator more (power - 1)

/-- The fewest digits that read back as a positive number, as an integer and the power of
ten of its last place. Seventeen are always enough. -/
def shortest (mantissa : Nat) (exponent : Int) : Nat × Int :=
  let fraction := magnitude mantissa exponent
  shortestFrom (.finite false mantissa exponent) fraction.1 fraction.2 17
    (leadingPower fraction.1 fraction.2)

/-- Removes trailing zeros, raising the power for each. -/
def dropZeros : Nat → List Char → Int → List Char × Int
  | 0, digits, power => (digits, power)
  | steps + 1, digits, power =>
    match digits with
    | '0' :: next :: rest => dropZeros steps (next :: rest) (power + 1)
    | other => (other, power)

/-- The exponent after the mark `e`: a sign and at least two digits. -/
def exponentText (power : Int) : List Char :=
  let digits := Nat.toDigits 10 power.natAbs
  (if power < 0 then '-' else '+') :: (List.replicate (2 - digits.length) '0' ++ digits)

/-- Writes digits whose point stands after the first `point` of them. -/
def layOut (digits : List Char) (point : Int) : List Char :=
  if -4 < point && point ≤ 16 then
    if point ≤ 0 then
      "0.".toList ++ List.replicate (-point).toNat '0' ++ digits
    else if (digits.length : Int) ≤ point then
      digits ++ List.replicate (point.toNat - digits.length) '0' ++ ".0".toList
    else
      digits.take point.toNat ++ '.' :: digits.drop point.toNat
  else
    let fraction := digits.drop 1
    digits.take 1 ++ (if fraction.isEmpty then [] else '.' :: fraction) ++
      'e' :: exponentText (point - 1)

/-- The text of a number. -/
def text : Binary64 → String
  | .undefined => "nan"
  | .infinite negative => if negative then "-inf" else "inf"
  | .finite negative mantissa exponent =>
    let body :=
      if mantissa == 0 then "0.0".toList
      else
        let found := shortest mantissa exponent
        let trimmed := dropZeros 20 (Nat.toDigits 10 found.1).reverse found.2
        let digits := trimmed.1.reverse
        layOut digits (digits.length + trimmed.2)
    String.ofList (if negative then '-' :: body else body)

end CrateAudit.Binary64

/-
This file writes a binary64 number with a fixed count of decimal places, rounding
its exact value, a half going to the even digit, and writes a share as a whole
percentage.
-/

import CrateAudit.Number.Binary64

namespace CrateAudit.Binary64

/-- The digits of a number of `10 ^ -places` units. -/
def placeDigits (places units : Nat) : List Char :=
  let digits := Nat.toDigits 10 units
  let padded := List.replicate (places + 1 - digits.length) '0' ++ digits
  let whole := padded.length - places
  if places == 0 then padded else padded.take whole ++ '.' :: padded.drop whole

/-- The number with `places` decimal places. -/
def withPlaces (places : Nat) : Binary64 → String
  | .undefined => "nan"
  | .infinite negative => if negative then "-inf" else "inf"
  | .finite negative mantissa exponent =>
    let fraction := magnitude mantissa exponent
    let digits := placeDigits places (roundDivide (fraction.1 * Nat.pow 10 places) fraction.2)
    String.ofList (if negative then '-' :: digits else digits)

/-- The number as a whole percentage of one. -/
def asPercent (number : Binary64) : String :=
  (hundredfold number).withPlaces 0 ++ "%"

end CrateAudit.Binary64

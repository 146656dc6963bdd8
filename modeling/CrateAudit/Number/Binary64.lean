/-
This file holds the binary64 numbers of IEEE 754 as exact values, so that reading
and writing them is arithmetic on natural numbers. A finite number is a sign, a
mantissa below 2^53 and an exponent of two. Every result is the nearest number,
and of two nearest the one with the even mantissa.
-/

namespace CrateAudit

/-- A binary64 number. A finite one stands for `mantissa * 2 ^ exponent`, negated if
`negative`; zero keeps its sign. -/
inductive Binary64 where
  | finite (negative : Bool) (mantissa : Nat) (exponent : Int)
  | infinite (negative : Bool)
  | undefined
  deriving DecidableEq, Repr

namespace Binary64

/-- The least exponent of two. -/
def leastExponent : Int := -1074

/-- The greatest exponent of two. -/
def greatestExponent : Int := 971

/-- The number zero. -/
def zero : Binary64 := .finite false 0 leastExponent

/-- The quotient to the nearest natural number, a half going to the even one. -/
def roundDivide (numerator denominator : Nat) : Nat :=
  let quotient := numerator / denominator
  let remainder := numerator % denominator
  if 2 * remainder < denominator then quotient
  else if denominator < 2 * remainder then quotient + 1
  else if quotient % 2 == 0 then quotient else quotient + 1

/-- The result of `roundDivide` is within half a unit of the quotient. -/
theorem roundDivide_within (numerator denominator : Nat) (positive : 0 < denominator) :
    2 * numerator ≤ 2 * denominator * roundDivide numerator denominator + denominator ∧
      2 * denominator * roundDivide numerator denominator ≤ 2 * numerator + denominator := by
  have parts := Nat.div_add_mod numerator denominator
  have small := Nat.mod_lt numerator positive
  have expand (q : Nat) : 2 * denominator * q = 2 * (denominator * q) := by rw [Nat.mul_assoc]
  have next (q : Nat) : denominator * (q + 1) = denominator * q + denominator := Nat.mul_succ _ _
  simp only [expand]
  unfold roundDivide
  dsimp only
  split
  · omega
  · split
    · rw [next]; omega
    · split
      · omega
      · rw [next]; omega

/-- Scales a fraction by a power of two. -/
def scale (numerator denominator : Nat) (power : Int) : Nat × Nat :=
  if 0 ≤ power then (numerator <<< power.toNat, denominator)
  else (numerator, denominator <<< (-power).toNat)

/-- The exponent of the last place of a fraction written with 53 binary digits. -/
def lastPlace (numerator denominator : Nat) : Int :=
  let guess : Int := (numerator.log2 : Int) - denominator.log2 - 52
  let scaled := scale numerator denominator (-guess)
  if scaled.1 < scaled.2 <<< 52 then guess - 1 else guess

/-- The number nearest to a fraction. -/
def ofFraction (negative : Bool) (numerator denominator : Nat) : Binary64 :=
  if numerator == 0 then .finite negative 0 leastExponent
  else
    let exponent := max (lastPlace numerator denominator) leastExponent
    let scaled := scale numerator denominator (-exponent)
    let rounded := roundDivide scaled.1 scaled.2
    let carried := if rounded == 1 <<< 53 then (1 <<< 52, exponent + 1) else (rounded, exponent)
    if greatestExponent < carried.2 then .infinite negative
    else .finite negative carried.1 carried.2

/-- The number nearest to `digits * 10 ^ power`. Powers far outside the range are
answered without computing them. -/
def ofDecimal (negative : Bool) (digits : Nat) (power : Int) : Binary64 :=
  let size : Int := (Nat.toDigits 10 digits).length
  if digits == 0 || size + power < -400 then .finite negative 0 leastExponent
  else if 400 < size + power then .infinite negative
  else if 0 ≤ power then ofFraction negative (digits * Nat.pow 10 power.toNat) 1
  else ofFraction negative digits (Nat.pow 10 (-power).toNat)

/-- The magnitude of a finite number as a fraction. -/
def magnitude (mantissa : Nat) (exponent : Int) : Nat × Nat :=
  scale mantissa 1 exponent

/-- The quotient of two integers, the second positive. -/
def ofQuotient (numerator : Int) (denominator : Nat) : Binary64 :=
  ofFraction (numerator < 0) numerator.natAbs denominator

/-- A hundred times a number. -/
def hundredfold : Binary64 → Binary64
  | .finite negative mantissa exponent =>
    let fraction := magnitude mantissa exponent
    ofFraction negative (fraction.1 * 100) fraction.2
  | other => other

/-- The integer part of a finite number. -/
def truncate? : Binary64 → Option Int
  | .finite negative mantissa exponent =>
    let fraction := magnitude mantissa exponent
    let whole : Int := (fraction.1 / fraction.2 : Nat)
    some (if negative then -whole else whole)
  | _ => none

/-- Whether the number is zero of either sign. -/
def isZero : Binary64 → Bool
  | .finite _ mantissa _ => mantissa == 0
  | _ => false

end Binary64

end CrateAudit

/-
This file describes a set of code points by the places where membership flips:
counting up from zero, a code point is a member when it has passed an odd number
of flips. The tables of character properties are given in this form.
-/

namespace CrateAudit.Text

/-- Membership in the set whose flips, in ascending order, are `flips`. -/
def passesOdd (code : Nat) : List Nat → Bool
  | [] => false
  | flip :: rest => if code < flip then false else !passesOdd code rest

end CrateAudit.Text

/-
This file finds the parenthesis that closes an opening one, by counting depth.
-/

import CrateAudit.Text.Blank

namespace CrateAudit.Fix

/-- How many characters further on a closing parenthesis brings the depth to zero. -/
def closingFrom? (depth : Int) : Line → Option Nat
  | [] => none
  | character :: rest =>
    if character = '(' then (closingFrom? (depth + 1) rest).map (· + 1)
    else if character = ')' then
      if depth = 1 then some 0 else (closingFrom? (depth - 1) rest).map (· + 1)
    else (closingFrom? depth rest).map (· + 1)

/-- The offset of the parenthesis that closes the one at an offset. -/
def matchingParenthesis? (code : Line) (opening : Nat) : Option Nat :=
  (closingFrom? 0 (code.drop opening)).map (opening + ·)

/-- The same for an offset that counts from the end when negative; the search then goes on over
the whole code again. There is no answer, not even that it stays open, for an offset before the
start. -/
def matchingParenthesisAt? (code : Line) (opening : Int) : Option (Option Int) :=
  if 0 ≤ opening then
    some ((matchingParenthesis? code opening.toNat).map Int.ofNat)
  else if 0 ≤ opening + code.length then
    some ((closingFrom? 0 (code.drop (opening + code.length).toNat ++ code)).map (opening + ·))
  else none

end CrateAudit.Fix

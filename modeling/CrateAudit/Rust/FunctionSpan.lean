/-
This file locates functions: the signature that starts at a line, and the lines up to
the end of the body.
-/

import CrateAudit.Rust.Block
import CrateAudit.Rust.Signature

namespace CrateAudit.Rust

/-- A function in a file. Lines are counted from one. -/
structure FunctionSpan where
  name : String
  firstLine : Nat
  lastLine : Nat
  returnsResult : Bool
  returnsOption : Bool
  deriving DecidableEq, Repr

namespace FunctionSpan

/-- The number of lines. -/
def length (function : FunctionSpan) : Int :=
  (function.lastLine : Int) - function.firstLine + 1

/-- Whether the line with the index `index`, counted from zero, belongs to the function. -/
def covers (function : FunctionSpan) (index : Nat) : Bool :=
  function.firstLine ≤ index + 1 && index + 1 ≤ function.lastLine

/-- Whether a `?` in the function could hand an error or nothing to its caller. -/
def canPropagate (function : FunctionSpan) : Bool :=
  function.returnsResult || function.returnsOption

end FunctionSpan

/-- The index of the last line of the item whose signature starts at a line. -/
def itemEnd (lines : List Line) (start : Nat) : Nat :=
  blockEnd lines (signatureAt lines start).braceIndex.toNat

/-- The function whose signature starts at a line. -/
def functionAt? (lines : List Line) (start : Nat) : Option FunctionSpan :=
  if start < lines.length then
    let signature := (signatureAt lines start).text
    (functionName? signature).map fun name =>
      { name := String.ofList name
        firstLine := start + 1
        lastLine := itemEnd lines start + 1
        returnsResult := returnsResult signature
        returnsOption := returnsOption signature }
  else none

/-- An item that starts inside the lines ends inside them. -/
theorem itemEnd_within {lines : List Line} {start : Nat} (exists_ : start < lines.length) :
    start ≤ itemEnd lines start ∧ itemEnd lines start < lines.length := by
  have bounds := signatureAt_braceIndex exists_
  have inside := @blockEnd_within lines (signatureAt lines start).braceIndex.toNat (by omega)
  unfold itemEnd
  omega

/-- The end of an item is the one of the block that opens where its signature ends. -/
theorem blockEnd?_braceIndex {lines : List Line} {start : Nat} (exists_ : start < lines.length) :
    blockEnd? lines (signatureAt lines start).braceIndex = some (itemEnd lines start : Int) := by
  have bounds := signatureAt_braceIndex exists_
  have found := @blockEnd?_of_lt lines (signatureAt lines start).braceIndex.toNat (by omega)
  rwa [Int.toNat_of_nonneg (by omega)] at found

end CrateAudit.Rust

/-
This file judges how surely a violation can be fixed without review. A violation
counts as fixable only where its fix would be applied.
-/

import CrateAudit.Fix.Plan
import CrateAudit.Number.Binary64

namespace CrateAudit.Fix

/-- A judgement. Without a suggestion of its own the guidance for the kind applies. -/
structure Assessment where
  autoFixable : Bool
  confidence : Binary64
  suggestion : Option String
  sideEffects : List String
  deriving DecidableEq, Repr

namespace Assessment

/-- A number of hundredths. -/
def hundredths (count : Nat) : Binary64 := .ofDecimal false count (-2)

def signatureEffects : List String :=
  ["Function signature change required", "All callers must be updated"]

def splitEffects : List String :=
  ["May require creating new helper functions", "Could affect function testing"]

/-- A call that panics becomes `?` only in a function that can hand the failure on. -/
def ofUnwrap (function : Option Rust.FunctionSpan) (line : Option Line) : Assessment :=
  match function.filter (·.canPropagate) with
  | none =>
    let place := match function with
      | some other => "`" ++ other.name ++ "`"
      | none => "the enclosing function"
    ⟨false, hundredths 75,
      some ("Change the return type of " ++ place ++ " to Result and use ?"), signatureEffects⟩
  | some function =>
    let replaceable := line.all fun text => (propagateErrors text).isApplicable
    if function.returnsResult then
      ⟨replaceable, if replaceable then hundredths 95 else hundredths 65,
        some ("Use ? operator; `" ++ function.name ++ "` already returns Result"), []⟩
    else
      ⟨replaceable, if replaceable then hundredths 85 else hundredths 60,
        some ("Use ? operator; `" ++ function.name ++ "` returns Option, so None propagates"), []⟩

def ofUnderscore (line : Option Line) : Assessment :=
  if line.any fun text => (removeDiscard text).isApplicable then
    ⟨true, hundredths 85, some "Remove the discarded binding", []⟩
  else if line.any fun text => "let".toList.isPrefixOf (Text.trimStart text) then
    ⟨false, hundredths 50,
      some "Handle the value instead of discarding it with `let _ =`", []⟩
  else
    ⟨false, hundredths 60,
      some "Either use the parameter or remove it from function signature", signatureEffects⟩

/-- The judgement of a violation of a kind, in a function and on a line where they are known. -/
def ofKind (kind : Kind) (function : Option Rust.FunctionSpan) (line : Option Line) :
    Assessment :=
  match kind with
  | .unwrapInProduction => ofUnwrap function line
  | .underscoreBandaid => ofUnderscore line
  | .lineTooLong =>
    ⟨false, hundredths 100,
      some "Break line at appropriate point (e.g., after comma, operator)", []⟩
  | .functionTooLarge => ⟨false, hundredths 30, none, splitEffects⟩
  | .fileTooLarge => ⟨false, hundredths 20, none, []⟩
  | _ => ⟨false, hundredths 0, none, []⟩

end Assessment

end CrateAudit.Fix

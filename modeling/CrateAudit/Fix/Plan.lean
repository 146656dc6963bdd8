/-
This file plans the edit of a line that violates the standards. Calls that panic on
failure become `?` where the function around them can hand the failure on, and a
binding that discards a plain value is removed. Every edit stays within its line;
what would need more is skipped with the reason.
-/

import CrateAudit.Fix.Parenthesis
import CrateAudit.Rule
import CrateAudit.Rust.FunctionSpan

namespace CrateAudit

namespace Fix

/-- Why a violation is left to manual review. -/
inductive SkipReason where
  | noPropagation
  | complexExpect
  | noCall
  | sideEffects
  | manyLines
  | unusedParameter
  | outsideFile
  | noAutomaticFix (kind : Kind)
  | lineShared
  deriving DecidableEq, Repr

namespace SkipReason

def message : SkipReason → String
  | .noPropagation => "Cannot use ? operator - function doesn't return Result/Option"
  | .complexExpect => "Complex expect pattern - manual review needed"
  | .noCall => "No .unwrap() or .expect() call in code on this line"
  | .sideEffects => "`let _ =` binding requires manual review - may have side effects"
  | .manyLines => "Multi-line `let _ =` binding - manual review needed"
  | .unusedParameter => "Unused parameter requires manual review - callers must change"
  | .outsideFile => "Line is outside the file"
  | .noAutomaticFix kind => "No automatic fix for " ++ kind.tag
  | .lineShared => "Line already rewritten by another fix"

end SkipReason

/-- What to do with a line. -/
inductive Plan where
  | replace (replacement : Line) (description : String)
  | remove (description : String)
  | skip (reason : SkipReason)
  deriving DecidableEq, Repr

namespace Plan

/-- Whether the line is edited. -/
def isApplicable : Plan → Bool
  | .skip _ => false
  | .replace _ _ | .remove _ => true

end Plan

/-- The kinds that have an automatic fix. -/
def fixableKinds : List Kind := [.unwrapInProduction, .underscoreBandaid]

/-! ### Calls that panic -/

def unwrapText : Line := ".unwrap()".toList

def expectText : Line := ".expect(".toList

/-- A stretch of a line: the offset of its first character and the one after its last. -/
abbrev Span := Nat × Nat

/-- The stretch of an `.expect(` call up to its closing parenthesis. -/
def expectSpan? (code : Line) (start : Nat) : Option Span :=
  (matchingParenthesis? code (start + expectText.length - 1)).map fun close => (start, close + 1)

/-- The stretches of all calls that panic, in ascending order; `none` if an `.expect(` call does
not close. -/
def callSpans? (code : Line) : Option (List Span) := do
  let unwraps := (Text.occurrences unwrapText code).map fun start =>
    (start, start + unwrapText.length)
  let expects ← (Text.occurrences expectText code).mapM (expectSpan? code)
  return (unwraps ++ expects).mergeSort fun first second => first.1 ≤ second.1

/-- The stretches that start at or after the end of the last one kept: a call inside the argument
of another goes away with it. -/
def outermostFrom (finish : Nat) : List Span → List Span
  | [] => []
  | span :: rest =>
    if span.1 < finish then outermostFrom finish rest else span :: outermostFrom span.2 rest

/-- Replaces stretches by a `?` each, in a text that starts at the offset `offset`. -/
def replaceSpans (offset : Nat) : List Span → Line → Line
  | [], line => line
  | span :: rest, line =>
    line.take (span.1 - offset) ++ '?' :: replaceSpans span.2 rest (line.drop (span.2 - offset))

/-- Replaces every call that panics in code by `?`. -/
def propagateErrors (line : Line) : Plan :=
  match callSpans? (Rust.codeOnly line) with
  | none => .skip .complexExpect
  | some [] => .skip .noCall
  | some spans =>
    let kept := outermostFrom 0 spans
    .replace (replaceSpans 0 kept line)
      ("Replaced " ++ toString kept.length ++ " unwrap/expect call" ++
        (if 1 < kept.length then "s" else "") ++ " with ?")

/-! ### Discarded bindings -/

open Regex (inOrder exactly parts many atLeastOne blank noneOf)

/-- A whole statement that discards a value; the value is the first group. -/
def simpleDiscard : Regex :=
  inOrder <|
    [.anchor .start, many blank] ++ parts "let" ++
    [atLeastOne blank, exactly '_', many blank, exactly '=', many blank,
      .group 1 (inOrder [atLeastOne (noneOf [';'])]), exactly ';', many blank, .anchor .finish]

/-- Whether a value may run code: it has a call, a field or a macro. -/
def mayRunCode (value : Line) : Bool :=
  value.contains '(' || value.contains '.' || value.contains '!'

/-- Removes a statement that discards a plain value. -/
def removeDiscard (line : Line) : Plan :=
  if !Rule.underscoreBinding.regex.startsLine line then .skip .unusedParameter
  else
    match (simpleDiscard.matchStart? (Rust.codeOnly line)).bind (·.group? 1) with
    | none => .skip .manyLines
    | some value =>
      if mayRunCode value then .skip .sideEffects
      else .remove ("Removed `" ++ String.ofList (Text.trim line) ++ "`")

/-! ### The plan for a violation -/

/-- The innermost function around the line with an index: of the functions that start at or above
it and reach it, the last. -/
def enclosingFrom (lines : List Line) (index : Nat) : Nat → Option Rust.FunctionSpan
  | 0 => none
  | start + 1 =>
    let found :=
      if (lines[start]?).any Rule.functionDefinition.regex.startsLine then
        (Rust.functionAt? lines start).filter (·.covers index)
      else none
    match found with
    | some function => some function
    | none => enclosingFrom lines index start

/-- The innermost function around the line with an index. -/
def enclosingFunction? (lines : List Line) (index : Nat) : Option Rust.FunctionSpan :=
  enclosingFrom lines index (min (index + 1) lines.length)

/-- What to do about a violation in a file with these lines. -/
def plan (lines : List Line) (violation : Violation) : Plan :=
  if violation.line < 1 then .skip .outsideFile
  else
    let index := (violation.line - 1).toNat
    match lines[index]? with
    | none => .skip .outsideFile
    | some line =>
      match violation.kind with
      | .unwrapInProduction =>
        if (enclosingFunction? lines index).any (·.canPropagate) then propagateErrors line
        else .skip .noPropagation
      | .underscoreBandaid => removeDiscard line
      | kind => .skip (.noAutomaticFix kind)

end Fix

end CrateAudit

/-
This file holds the result of an audit and adds to each violation the code around it,
a suggestion, and how surely it can be fixed. A manifest has no code around its
violations, and neither has a file that was not kept.
-/

import CrateAudit.Fix.Assessment
import CrateAudit.Guidance
import CrateAudit.Rust.CodeContext
import CrateAudit.Source
import CrateAudit.Summary

namespace CrateAudit

/-- The result of an audit. The sources are those of the files with violations. -/
structure Audit where
  root : String
  violations : List Violation
  summary : Summary
  sources : List Source

/-- A violation with what is known about it. -/
structure Analysis where
  violation : Violation
  context : Option Rust.CodeContext
  suggestion : String
  autoFixable : Bool
  priority : Int
  confidence : Binary64
  sideEffects : List String

namespace Analysis

/-- The source of a file. -/
def sourceOf? (sources : List Source) (file : String) : Option Source :=
  sources.find? fun source => source.path == file

/-- The judgement of a violation. The function around it matters only for calls that panic. -/
def assess (violation : Violation) (source : Option Source) : Fix.Assessment :=
  match source.filter fun source => !source.isManifest && 1 ≤ violation.line with
  | none => .ofKind violation.kind none none
  | some source =>
    let index := (violation.line - 1).toNat
    match source.lines[index]? with
    | none => .ofKind violation.kind none none
    | some line =>
      let function :=
        if violation.kind = .unwrapInProduction then Fix.enclosingFunction? source.lines index
        else none
      .ofKind violation.kind function (some line)

/-- The code around a line of a source, whether or not it exists. -/
def contextAt (source : Source) (number : Int) : Rust.CodeContext :=
  .ofLine number source.lines source.content

/-- The code around a violation. -/
def contextOf (violation : Violation) (source : Option Source) : Option Rust.CodeContext :=
  (source.filter fun source => !source.isManifest && !source.lines.isEmpty).map
    fun source => contextAt source violation.line

/-- What is known about a violation. The guidance can withhold a fix but not grant one. -/
def ofViolation (guidance : Guidance) (sources : List Source) (withContext : Bool)
    (violation : Violation) : Except Guidance.Fault Analysis := do
  let source := sourceOf? sources violation.file
  let assessment := assess violation source
  let suggestion ← match assessment.suggestion with
    | some suggestion => .ok suggestion
    | none => guidance.suggestion violation.kind
  let autoFixable ←
    if assessment.autoFixable then guidance.isAutoFixable violation.kind else .ok false
  return {
    violation
    context := if withContext then contextOf violation source else none
    suggestion
    autoFixable
    priority := ← guidance.priority violation.kind
    confidence := assessment.confidence
    sideEffects := assessment.sideEffects }

/-- What is known about each violation. -/
def ofViolations (guidance : Guidance) (sources : List Source) (withContext : Bool)
    (violations : List Violation) : Except Guidance.Fault (List Analysis) :=
  violations.mapM (ofViolation guidance sources withContext)

end Analysis

end CrateAudit

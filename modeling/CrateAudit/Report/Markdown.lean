/-
This file writes the report of an audit as a Markdown document: the totals, the kinds
by priority, a section for each kind, and the code around the violations where it is
known.
-/

import CrateAudit.Report.Terminal

namespace CrateAudit.Report

/-- The kinds that were found, in the order of the guidance; those it does not rank come last, by
tag. -/
def sectionOrder (guidance : Guidance) (summary : Summary) :
    Except Guidance.Fault (List (Kind × Nat)) :=
  guidance.priorityOrder.map fun keys =>
    let ranked := keys.filterMap fun key =>
      summary.counts.find? fun count => .text count.1.tag == key
    let others := summary.counts.filter fun count => !keys.contains (.text count.1.tag)
    ranked ++ others.mergeSort fun first second => first.1.tag ≤ second.1.tag

/-- The numbered line for a kind. -/
def priorityLine (guidance : Guidance) (entry : (Kind × Nat) × Nat) :
    Except Guidance.Fault String := do
  let suggestion ← guidance.fieldText (← guidance.entry entry.1.1) "suggested_fix" ""
  return toString (entry.2 + 1) ++ ". **" ++ entry.1.1.tag ++ "** - " ++ suggestion

/-- The line for a violation. -/
def bullet (violation : Violation) : String :=
  "- `" ++ violation.location ++ "` " ++ violation.message

/-- What a section says before its bullets. -/
def adviceLines (strategy sample : Option String) : List String :=
  (match strategy with
    | some text => ["**Strategy**:", "", text, ""]
    | none => []) ++
  match sample with
    | some text => ["**Example**:", "```rust", text, "```", ""]
    | none => []

/-- The section for a kind. -/
def kindSection (guidance : Guidance) (violations : List Violation) (count : Kind × Nat) :
    Except Guidance.Fault (List String) := do
  let fields ← guidance.entry count.1
  let strategy ← guidance.usableText fields "fix_strategy"
  let sample ← guidance.usableText fields "example_fix"
  return ["### " ++ count.1.tag ++ " (" ++ toString count.2 ++ " violations)", ""] ++
    adviceLines strategy sample ++ (violations.filter (·.kind == count.1)).map bullet ++ [""]

/-- The lines for a violation with the code around it. -/
def contextLines (analysis : Analysis) (context : Rust.CodeContext) : List String :=
  let place := match context.functionName with
    | some name => if name.isEmpty then "<module>" else name
    | none => "<module>"
  ("- `" ++ analysis.violation.location ++ "` in `" ++ place ++ "` (" ++
      context.errorStyle.label ++ "), fix confidence " ++ analysis.confidence.asPercent) ::
    analysis.sideEffects.map ("  - side effect: " ++ ·)

/-- The section for the code around violations. -/
def contextSection (analyses : List Analysis) : List String :=
  let known := analyses.filterMap fun analysis =>
    analysis.context.map (contextLines analysis)
  if known.isEmpty then [] else ["## Context", ""] ++ known.flatten ++ [""]

/-- The lines that every report starts with. -/
def headLines (audit : Audit) (time : String) : List String :=
  ["# Rust Compliance Report", "",
    "**Generated**: " ++ time,
    "**Project**: " ++ audit.root,
    "**Total Violations**: " ++ toString audit.summary.total,
    "**Compliance**: " ++ complianceText audit.summary,
    ""]

/-- The report as Markdown. -/
def markdown (guidance : Guidance) (audit : Audit) (analyses : Option (List Analysis))
    (time : String) : Except Guidance.Fault String := do
  if audit.summary.isCompliant then
    return "\n".intercalate (headLines audit time ++ [fullCompliance]) ++ "\n"
  else
    let order ← sectionOrder guidance audit.summary
    let priorities ← order.zipIdx.mapM (priorityLine guidance)
    let sections ← order.mapM (kindSection guidance audit.violations)
    return "\n".intercalate <|
      headLines audit time ++ ["## Fix Priority Order", ""] ++ priorities ++ [""] ++
        ["## Violation Summary", ""] ++ sections.flatten ++ contextSection (analyses.getD [])

end CrateAudit.Report

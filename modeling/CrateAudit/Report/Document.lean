/-
This file writes the report of an audit as a JSON document: where and when it was made,
the totals, and one record for each violation.
-/

import CrateAudit.Analysis
import CrateAudit.Data.Json
import CrateAudit.Report.Wording

namespace CrateAudit.Report

def violationEntries (violation : Violation) : List (String × Json) :=
  [("kind", .string violation.kind.tag),
    ("file", .string violation.file),
    ("line", .integer violation.line),
    ("message", .string violation.message),
    ("severity", .string violation.severity.label)]

def contextDocument (context : Rust.CodeContext) : Json :=
  .object
    [("function_name", .ofOption context.functionName),
      ("function_signature", .ofOption context.functionSignature),
      ("return_type", .ofOption context.returnType),
      ("is_async", .boolean context.isAsync),
      ("is_generic", .boolean context.isGeneric),
      ("returns_result", .boolean context.returnsResult),
      ("returns_option", .boolean context.returnsOption),
      ("trait_impl", .ofOption context.traitImpl),
      ("surrounding_code", .ofStrings context.surroundingCode),
      ("imports", .ofStrings context.imports),
      ("error_handling_style", .string context.errorStyle.label)]

/-- The record of a violation that has been analysed. -/
def analysisDocument (analysis : Analysis) : Json :=
  .object <|
    violationEntries analysis.violation ++
    [("suggested_fix", .string analysis.suggestion),
      ("auto_fixable", .boolean analysis.autoFixable),
      ("priority", .integer analysis.priority),
      ("confidence", .float analysis.confidence),
      ("side_effects", .ofStrings analysis.sideEffects)] ++
    match analysis.context with
    | some context => [("context", contextDocument context)]
    | none => []

/-- The record of a violation that has not. -/
def violationDocument (guidance : Guidance) (violation : Violation) :
    Except Guidance.Fault Json := do
  let suggestion ← guidance.suggestion violation.kind
  let priority ← guidance.priority violation.kind
  return .object <|
    violationEntries violation ++
      [("suggested_fix", .string suggestion), ("priority", .integer priority)]

def summaryDocument (summary : Summary) : Json :=
  .object
    [("total_violations", .integer summary.total),
      ("counts_by_kind",
        .object (summary.counts.map fun count => (count.1.tag, .integer count.2))),
      ("files_analyzed", .integer summary.files),
      ("files_with_violations", .integer summary.filesWithViolations),
      ("compliance_percentage", .float summary.compliance)]

/-- The report as a document. -/
def document (guidance : Guidance) (audit : Audit) (analyses : Option (List Analysis))
    (time : String) : Except Guidance.Fault Json := do
  let records ← match analyses with
    | some analyses => pure (analyses.map analysisDocument)
    | none => audit.violations.mapM (violationDocument guidance)
  return .object
    [("metadata",
        .object
          [("timestamp", .string time),
            ("project_path", .string audit.root),
            ("tool", .string toolName),
            ("tool_version", .string version),
            ("total_files", .integer audit.summary.files),
            ("total_violations", .integer audit.summary.total)]),
      ("summary", summaryDocument audit.summary),
      ("violations", .array records)]

/-- The priorities that the report holds; its other numbers count lines and files. -/
def priorities (guidance : Guidance) (audit : Audit) :
    Option (List Analysis) → Except Guidance.Fault (List Int)
  | some analyses => .ok (analyses.map (·.priority))
  | none => audit.violations.mapM fun violation => guidance.priority violation.kind

/-- The text of the report. It has one if all of its priorities do. -/
def json (guidance : Guidance) (audit : Audit) (analyses : Option (List Analysis))
    (time : String) : Except Guidance.Fault String := do
  let report ← document guidance audit analyses time
  let _ ← (← priorities guidance audit analyses).mapM Guidance.priorityText
  return report.render 0

end CrateAudit.Report

/-
This file lays out what the terminal shows of an audit and of a repair: tables, and
lines of text whose colours are given in square brackets.
-/

import CrateAudit.Analysis
import CrateAudit.Number.Places
import CrateAudit.Repair
import CrateAudit.Report.Wording

namespace CrateAudit.Report

/-- A table of texts. -/
structure Grid where
  title : String
  columns : List String
  rows : List (List String)
  deriving DecidableEq, Repr

/-- Something shown on the terminal. -/
inductive Printed where
  | text (line : String)
  | grid (grid : Grid)
  deriving DecidableEq, Repr

/-- The texts that are shown, each with its markup. -/
def Printed.texts : Printed → List String
  | .text line => [line]
  | .grid table => table.title :: (table.columns ++ table.rows.flatten)

/-- How the violations of an audit are grouped. -/
inductive View where
  | byKind
  | byFile
  deriving DecidableEq, Repr

/-! ### Violations by kind -/

/-- A kind with the number of its violations and what the guidance says about it. -/
structure KindRow where
  kind : Kind
  count : Nat
  priority : Int
  autoFixable : Bool
  deriving DecidableEq, Repr

/-- The most urgent first, then the most frequent, then by tag. -/
def KindRow.atMost (first second : KindRow) : Bool :=
  first.priority < second.priority ||
    (first.priority == second.priority &&
      (second.count < first.count ||
        (second.count == first.count && first.kind.tag ≤ second.kind.tag)))

def kindRow (guidance : Guidance) (count : Kind × Nat) : Except Guidance.Fault KindRow := do
  let priority ← guidance.priority count.1
  let autoFixable ← guidance.isAutoFixable count.1
  return ⟨count.1, count.2, priority, autoFixable⟩

/-- The rows for the kinds that were found. -/
def kindRows (guidance : Guidance) (summary : Summary) : Except Guidance.Fault (List KindRow) :=
  (summary.counts.mapM (kindRow guidance)).map (·.mergeSort KindRow.atMost)

def fixLabel (autoFixable : Bool) : String :=
  if autoFixable then "✅ Auto" else "⚠️ Manual"

def kindCells (row : KindRow) : Except Guidance.Fault (List String) := do
  let priority ← Guidance.priorityText row.priority
  return [row.kind.tag, toString row.count, priority, fixLabel row.autoFixable]

def kindGrid (rows : List KindRow) : Except Guidance.Fault Grid :=
  (rows.mapM kindCells).map fun cells =>
    ⟨"[RUST] Compliance Scan", ["Kind", "Count", "Priority", "Fix?"], cells⟩

/-! ### Violations by file -/

/-- A file with the numbers of its violations by kind. -/
structure FileRow where
  file : String
  total : Nat
  counts : List (Kind × Nat)
  deriving DecidableEq, Repr

/-- The file with the most violations first, then by name. -/
def FileRow.atMost (first second : FileRow) : Bool :=
  second.total < first.total || (second.total == first.total && first.file ≤ second.file)

/-- The most frequent kind first, then by tag. -/
def countAtMost (first second : Kind × Nat) : Bool :=
  second.2 < first.2 || (second.2 == first.2 && first.1.tag ≤ second.1.tag)

def fileRow (violations : List Violation) (file : String) : FileRow :=
  let own := violations.filter (·.file == file)
  ⟨file, own.length, (Summary.countByKind own).mergeSort countAtMost⟩

def fileRows (violations : List Violation) : List FileRow :=
  ((Summary.filesOf violations).map (fileRow violations)).mergeSort FileRow.atMost

/-- The counts of a file in one text. -/
def breakdown (counts : List (Kind × Nat)) : String :=
  ", ".intercalate <| counts.map fun count => count.1.tag ++ "(" ++ toString count.2 ++ ")"

def fileGrid (rows : List FileRow) : Grid :=
  ⟨"[RUST] Compliance Scan (by file)", ["File", "Total", "Kinds"],
    rows.map fun row => [row.file, toString row.total, breakdown row.counts]⟩

/-! ### The whole audit -/

def severityText (severity : Severity) : String :=
  match severity with
  | .error => "[red]" ++ severity.label ++ "[/]"
  | .warning => "[yellow]" ++ severity.label ++ "[/]"

def detailGrid (violations : List Violation) : Grid :=
  ⟨"Violations", ["Location", "Kind", "Severity", "Message"],
    violations.map fun violation =>
      [violation.location, violation.kind.tag, severityText violation.severity,
        violation.message]⟩

/-- The compliance with one decimal place. -/
def complianceText (summary : Summary) : String :=
  summary.compliance.withPlaces 1 ++ "%"

def verdict (summary : Summary) : String :=
  if summary.isCompliant then "[bold green]✅ " ++ fullCompliance ++ "[/]"
  else
    "[bold red]❌ Found " ++ toString summary.total ++ " violations in " ++
      toString summary.filesWithViolations ++ " of " ++ toString summary.files ++ " files[/]"

/-- What the terminal shows of an audit. -/
def auditPrints (guidance : Guidance) (audit : Audit) (view : View) :
    Except Guidance.Fault (List Printed) := do
  let grids ←
    if audit.violations.isEmpty then pure []
    else do
      let overview ← match view with
        | .byFile => pure (fileGrid (fileRows audit.violations))
        | .byKind => kindRows guidance audit.summary >>= kindGrid
      pure [.grid overview, .grid (detailGrid audit.violations)]
  return grids ++
    [.text "", .text (verdict audit.summary),
      .text ("Compliance: [bold]" ++ complianceText audit.summary ++ "[/]")]

/-! ### Repairs -/

def editGrid (repair : Repair) : Grid :=
  ⟨if repair.dryRun then "[RUST] Would fix" else "[RUST] Fixed", ["Location", "Kind", "Change"],
    repair.edits.map fun edit =>
      [edit.file ++ ":" ++ toString edit.line, edit.kind.tag, edit.description]⟩

def skippedGrid (repair : Repair) : Grid :=
  ⟨"Skipped (manual review)", ["Location", "Kind", "Reason"],
    repair.skipped.map fun skipped =>
      [skipped.violation.location, skipped.violation.kind.tag, skipped.reason]⟩

/-- What the terminal shows of a repair. -/
def repairPrints (repair : Repair) : List Printed :=
  let verb := if repair.dryRun then "would be" else "were"
  (if repair.edits.isEmpty then [] else [.grid (editGrid repair)]) ++
  (if repair.skipped.isEmpty then [] else [.grid (skippedGrid repair)]) ++
  [.text "",
    .text ("[bold]" ++ toString repair.edits.length ++ "[/] violations " ++ verb ++ " fixed, " ++
      "[bold]" ++ toString repair.skipped.length ++ "[/] skipped, " ++
      "[bold]" ++ toString repair.files.length ++ "[/] files " ++ verb ++ " modified")]

end CrateAudit.Report

/-
This file counts what an audit has found: violations by kind, files with violations,
and the share of files without any.
-/

import CrateAudit.Number.Binary64
import CrateAudit.Violation

namespace CrateAudit

/-- The totals of an audit. Kinds are counted in the order in which they first appear. -/
structure Summary where
  total : Nat
  counts : List (Kind × Nat)
  files : Int
  filesWithViolations : Int
  compliance : Binary64
  deriving DecidableEq, Repr

namespace Summary

/-- The kinds that appear, in the order of their first appearance. -/
def kindsOf (violations : List Violation) : List Kind :=
  (violations.map (·.kind)).eraseDups

/-- How many violations there are of each kind that appears. -/
def countByKind (violations : List Violation) : List (Kind × Nat) :=
  (kindsOf violations).map fun kind => (kind, violations.countP (·.kind == kind))

/-- The files that have violations. -/
def filesOf (violations : List Violation) : List String :=
  (violations.map (·.file)).eraseDups

/-- The share of files without violations, in percent. No files, or more files with violations
than there are, make it zero. -/
def percentage (files filesWithViolations : Int) : Binary64 :=
  if files ≤ 0 || files < filesWithViolations then .zero
  else (Binary64.ofQuotient (files - filesWithViolations) files.toNat).hundredfold

/-- The totals for the violations found in a number of files. -/
def ofViolations (violations : List Violation) (files : Int) : Summary :=
  let withViolations : Int := (filesOf violations).length
  { total := violations.length
    counts := countByKind violations
    files
    filesWithViolations := withViolations
    compliance := percentage files withViolations }

/-- Whether nothing was found. -/
def isCompliant (summary : Summary) : Bool :=
  summary.total == 0

/-- The number of violations of a kind. -/
def count (summary : Summary) (kind : Kind) : Nat :=
  (summary.counts.lookup kind).getD 0

end Summary

end CrateAudit

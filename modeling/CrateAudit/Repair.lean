/-
This file holds the outcome of fixing a project.
-/

import CrateAudit.Fix.Edit

namespace CrateAudit

/-- The edits made or planned, what was skipped, and the files that change. In a dry run nothing
is written. -/
structure Repair where
  edits : List Fix.Edit
  skipped : List Fix.Skipped
  files : List String
  dryRun : Bool
  deriving DecidableEq, Repr

end CrateAudit

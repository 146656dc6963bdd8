/-
This file audits a project on a disk. Each file is read and scanned by itself; the
results are merged, and what they are merged to does not depend on the order in which
they arrive. A file that cannot be read is left out.
-/

import CrateAudit.Analysis
import CrateAudit.Notice
import CrateAudit.Project.Discovery
import CrateAudit.Scan.Manifest
import CrateAudit.Scan.RustFile

namespace CrateAudit

/-- A file that has been scanned. -/
structure FileScan where
  source : Source
  violations : List Violation
  deriving DecidableEq, Repr

namespace Audit

/-- The audit that the scans of files add up to. Sources without violations are not kept. -/
def ofScans (root : String) (scans : List FileScan) : Audit :=
  let found := scans.filter fun scan => !scan.violations.isEmpty
  let violations := Violation.merge (found.map (·.violations))
  { root
    violations
    summary := .ofViolations violations scans.length
    sources := found.map (·.source) }

end Audit

namespace Project

/-- Scans a source as the manifest or the Rust file that it is. -/
def scanSource (settings : Settings) (source : Source) (testPath : Option String) :
    List Violation :=
  if source.isManifest then Scan.manifest settings source
  else Scan.rustFile settings source testPath

/-- Reads and scans a file. It is named by the path from the root. A root that is itself a file is
named by its last part, and its whole path tells whether it holds tests. -/
def scanFile (settings : Settings) (disk : Disk) (root path : Path) :
    Except FileFault FileScan := do
  let content ← disk.readText path
  let source := Source.ofText (path.shownBelow root) content
  let testPath := if path = root then some path.text else none
  return ⟨source, scanSource settings source testPath⟩

/-- What became of each file of a project. -/
def scanFiles (settings : Settings) (disk : Disk) (root : Path) (paths : List Path) :
    List (Path × Except FileFault FileScan) :=
  paths.map fun path => (path, scanFile settings disk root path)

/-- The scans that succeeded. -/
def scansOf (outcomes : List (Path × Except FileFault FileScan)) : List FileScan :=
  outcomes.filterMap fun outcome => outcome.2.toOption

/-- The notice about a file that could not be read. -/
def skipNotice? (outcome : Path × Except FileFault FileScan) : Option Notice :=
  match outcome.2 with
  | .error cause => some (.skipping outcome.1.text cause)
  | .ok _ => none

/-- Audits what lies at or below a target. -/
def audit (settings : Settings) (disk : Disk) (target : String) : List Notice × Audit :=
  let root := disk.resolve (.ofText target)
  let paths := discover disk root settings.excludedDirectories
  let outcomes := scanFiles settings disk root paths
  let audit := Audit.ofScans root.text (scansOf outcomes)
  (.scanning paths.length root.text :: outcomes.filterMap skipNotice? ++
      [.scanned (scansOf outcomes).length audit.summary.total],
    audit)

end Project

end CrateAudit

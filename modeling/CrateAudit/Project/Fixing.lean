/-
This file fixes a project on a disk. The fixes are planned for what an audit reports,
file by file, and each changed file is written once. A file that cannot be written
keeps its text, and its edits do not count; a dry run plans all and writes nothing.
-/

import CrateAudit.Project.Scan
import CrateAudit.Repair

namespace CrateAudit.Project

/-- Which kinds to fix, and whether to write. No kinds to fix means all. -/
structure RepairOptions where
  only : List Kind
  skip : List Kind
  dryRun : Bool
  deriving DecidableEq, Repr

namespace RepairOptions

/-- The kinds to fix. -/
def kinds (options : RepairOptions) : List Kind :=
  Fix.fixableKinds.filter fun kind =>
    (options.only.isEmpty || options.only.contains kind) && !options.skip.contains kind

/-- The kinds asked for that have no automatic fix. -/
def unfixable (options : RepairOptions) : List Kind :=
  Kind.all.filter fun kind => options.only.contains kind && !Fix.fixableKinds.contains kind

end RepairOptions

/-- A repair under way: what it has done, what it has told, and the disk as it is now. -/
structure RepairRun where
  repair : Repair
  notices : List Notice
  disk : Disk

namespace RepairRun

def tell (run : RepairRun) (notices : List Notice) : RepairRun :=
  { run with notices := run.notices ++ notices }

/-- Counts the edits of a file as made. -/
def record (run : RepairRun) (file : String) (edits : List Fix.Edit) : RepairRun :=
  { run with
    repair := { run.repair with
      edits := run.repair.edits ++ edits
      files := run.repair.files ++ [file] } }.tell
    [.repaired file run.repair.dryRun edits.length]

def recordSkipped (run : RepairRun) (skipped : List Fix.Skipped) : RepairRun :=
  { run with repair := { run.repair with skipped := run.repair.skipped ++ skipped } }

end RepairRun

/-- Where the file of an audit lies: below the root, or at the root if that is the file. -/
def placeOf (disk : Disk) (root : Path) (file : String) : Path :=
  if disk.holdsDirectory root then root.append (.ofText file) else root

/-- The text of a source after its edits. -/
def repairedText (source : Source) (edits : List Fix.Edit) : List Char :=
  (Fix.applyEdits? source edits).getD source.content

/-- Makes the edits of a file, if there are any. -/
def writeEdits (place : Path) (source : Source) (edits : List Fix.Edit) (run : RepairRun) :
    RepairRun :=
  if edits.isEmpty then run
  else if run.repair.dryRun then run.record source.path edits
  else
    match run.disk.writeText place (repairedText source edits) with
    | .error cause => run.tell [.repairFailed source.path cause]
    | .ok disk => { run with disk }.record source.path edits

/-- Plans and makes the edits of a file for its violations. -/
def repairFile (place : Path) (source : Source) (violations : List Violation)
    (run : RepairRun) : RepairRun :=
  let plan := Fix.planFile source violations
  let planned := plan.edits.map fun edit => .planned edit.file edit.line edit.description
  writeEdits place source plan.edits ((run.recordSkipped plan.skipped).tell planned)

/-- The files that have violations to fix, by name. -/
def filesToRepair (violations : List Violation) : List String :=
  (Summary.filesOf violations).mergeSort (· ≤ ·)

/-- Repairs one file after another. -/
def repairFiles (root : Path) (audit : Audit) (violations : List Violation) :
    List String → RepairRun → RepairRun
  | [], run => run
  | file :: rest, run =>
    match Analysis.sourceOf? audit.sources file with
    | none => repairFiles root audit violations rest run
    | some source =>
      repairFiles root audit violations rest <|
        repairFile (placeOf run.disk root file) source (violations.filter (·.file == file)) run

/-- Repairs what lies at or below a target. -/
def repair (settings : Settings) (disk : Disk) (target : String) (options : RepairOptions) :
    RepairRun :=
  let (notices, audit) := Project.audit settings disk target
  let chosen := audit.violations.filter fun violation => options.kinds.contains violation.kind
  let start : RepairRun :=
    ⟨⟨[], [], [], options.dryRun⟩,
      options.unfixable.map .noAutomaticFix ++ [.fixing target] ++ notices, disk⟩
  let run := repairFiles (disk.resolve (.ofText target)) audit chosen (filesToRepair chosen) start
  run.tell [.repairsDone options.dryRun run.repair.files.length]

end CrateAudit.Project

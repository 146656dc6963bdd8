/-
This file scans the files of a project with several workers at once. A free worker takes
the next file that waits; which of the files in work is done first, and which of the
results at hand is collected first, is left open.
-/

import CrateAudit.Project.Scan

namespace CrateAudit.Project

/-- A file and what became of it. -/
abbrev FileOutcome := Path × Except FileFault FileScan

/-- How many workers a number of files gets: those that the settings allow, but no more than there
are files, and at least one where they allow any. -/
def workerCount (settings : Settings) (files : Nat) : Nat :=
  min settings.maxWorkers (max files 1)

/-- An audit under way: the files that wait, those in work, the results at hand and those that are
collected. -/
structure Pool where
  waiting : List Path
  inWork : List Path
  atHand : List FileOutcome
  collected : List FileOutcome

namespace Pool

/-- All files wait. -/
def start (paths : List Path) : Pool := ⟨paths, [], [], []⟩

/-- Whether everything is collected. -/
def isDone (pool : Pool) : Bool :=
  pool.waiting.isEmpty && pool.inWork.isEmpty && pool.atHand.isEmpty

/-- What the collected results add up to. -/
def audit (root : Path) (pool : Pool) : Audit :=
  .ofScans root.text (scansOf pool.collected)

/-- What can happen next: a free worker takes the next file, a file in work is done, or a result at
hand is collected. -/
inductive Step (settings : Settings) (disk : Disk) (root : Path) (workers : Nat) :
    Pool → Pool → Prop where
  | take (path : Path) (waiting inWork : List Path) (atHand collected : List FileOutcome)
      (free : inWork.length < workers) :
      Step settings disk root workers
        ⟨path :: waiting, inWork, atHand, collected⟩ ⟨waiting, path :: inWork, atHand, collected⟩
  | finish (path : Path) (waiting before after : List Path)
      (atHand collected : List FileOutcome) :
      Step settings disk root workers
        ⟨waiting, before ++ path :: after, atHand, collected⟩
        ⟨waiting, before ++ after, (path, scanFile settings disk root path) :: atHand, collected⟩
  | collect (outcome : FileOutcome) (waiting inWork : List Path)
      (before after collected : List FileOutcome) :
      Step settings disk root workers
        ⟨waiting, inWork, before ++ outcome :: after, collected⟩
        ⟨waiting, inWork, before ++ after, collected ++ [outcome]⟩

end Pool

end CrateAudit.Project

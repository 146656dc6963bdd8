/-
This file is the program. The arguments are the command line; the names of the files
of the project come from standard input, one a line. Reports go to standard output,
all that the operator is told goes to standard error, and changed files are written.
-/

import CrateAudit.Command.Run
import CrateAudit.Data.Calendar
import CrateAudit.Guidance.Standard
import Std.Time.DateTime.Timestamp

namespace CrateAudit.Program

open Command

/-- The lines of a stream up to its end. -/
partial def readLines (stream : IO.FS.Stream) : IO (List String) := do
  let line ← stream.getLine
  if line.isEmpty then return []
  let name := String.ofList (Text.trimEnd line.toList)
  return name :: (← readLines stream)

/-- The tree that holds the files with these names. -/
def loadTree (directory : List String) (names : List String) : IO Tree :=
  names.foldlM
    (fun tree (name : String) => do
      let bytes ← IO.FS.readBinFile name
      let place := (Path.resolve directory (.ofText name)).names
      return Tree.set (.file bytes.toList) place tree)
    (Tree.set .empty directory .empty)

/-- Writes the files that a run has changed. -/
def saveChanges (before after : Tree) : IO Unit := do
  let known := before.files
  for (place, bytes) in after.files do
    if known.lookup place != some bytes then
      IO.FS.createDirAll (Path.mk .root place.dropLast).text
      IO.FS.writeBinFile (Path.mk .root place).text ⟨bytes.toArray⟩

/-- The lines that show something printed. -/
def printedLines : Report.Printed → List String
  | .text line => [line]
  | .grid grid =>
    grid.title :: " | ".intercalate grid.columns :: grid.rows.map (" | ".intercalate ·)

/-- Tells the operator and prints the reports. -/
def present (outcome : Outcome) : IO Unit := do
  for warning in outcome.warnings do
    IO.eprintln warning.message
  for notice in outcome.notices do
    for line in (notice.announce .standard .plain).shown do
      IO.eprintln line
  for line in outcome.prints.flatMap printedLines do
    IO.println line
  for text in outcome.output do
    IO.println text

/-- The status that the system gets. -/
def systemStatus : Ending → UInt32
  | .status code => code.toUInt32
  | .broken _ => 1

def run (words : List String) : IO UInt32 := do
  let directory := (Path.ofText ((← IO.getEnv "PWD").getD "/")).names
  let tree ← loadTree directory (← readLines (← IO.getStdin))
  let now ← Std.Time.Timestamp.now
  let disk : Disk :=
    { tree, workingDirectory := directory, unreadable := [], unwritable := [] }
  let time := Calendar.reportTime now.toSecondsSinceUnixEpoch.val.toNat
  let outcome := runWords ⟨disk, .standard, time, .plain⟩ words
  present outcome
  saveChanges tree outcome.disk.tree
  return systemStatus outcome.ending

end CrateAudit.Program

def main (words : List String) : IO UInt32 :=
  CrateAudit.Program.run words

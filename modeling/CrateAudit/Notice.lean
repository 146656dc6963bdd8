/-
This file holds what a run tells its operator on the way: greetings, progress, files
that are left out, and the reason for which a command is refused.
-/

import CrateAudit.Announcer
import CrateAudit.Project.Configuration

namespace CrateAudit

/-- Why a command is refused. -/
inductive Refusal where
  | unknownFormat (name : String)
  | unknownView (name : String)
  | targetMissing (target : String)
  | notFile (target : String)
  | lineOutside (line : Int) (target : String) (lines : Nat)
  | unknownKind (tag : String)
  | value (cause : ConfigurationFault)
  | configuration (cause : ConfigurationFault)
  deriving DecidableEq, Repr

namespace Refusal

def message (words : FaultWords) : Refusal → String
  | .unknownFormat name => "Unknown format '" ++ name ++ "' (use terminal, json, markdown)"
  | .unknownView name => "Unknown view '" ++ name ++ "' (use by_kind, by_file)"
  | .targetMissing target => "Path not found: " ++ target
  | .notFile target => "Not a file: " ++ target
  | .lineOutside line target lines =>
    "Line " ++ toString line ++ " is outside " ++ target ++ " (" ++ toString lines ++ " lines)"
  | .unknownKind tag => Kind.unknownMessage tag
  | .value cause => cause.message words
  | .configuration cause => "Configuration error: " ++ cause.message words

end Refusal

/-- Something that a run tells. -/
inductive Notice where
  | greeting
  | scanning (files : Nat) (root : String)
  | skipping (path : String) (cause : FileFault)
  | scanned (files violations : Nat)
  | noAutomaticFix (kind : Kind)
  | fixing (target : String)
  | planned (file : String) (line : Int) (description : String)
  | repaired (file : String) (dryRun : Bool) (edits : Nat)
  | repairFailed (file : String) (cause : FileFault)
  | repairsDone (dryRun : Bool) (files : Nat)
  | reportWritten (file : String)
  | refused (cause : Refusal)
  deriving DecidableEq, Repr

namespace Notice

/-- How a voice announces the notice. -/
def announce (announcer : Announcer) (words : FaultWords) : Notice → Announcement
  | .greeting => announcer.greeting
  | .scanning files root =>
    announcer.step ("Scanning " ++ toString files ++ " files under " ++ root)
  | .skipping path cause => Announcer.warning ("Skipping " ++ path ++ ": " ++ cause.message)
  | .scanned files violations =>
    Announcer.debug
      ("Scanned " ++ toString files ++ " files, " ++ toString violations ++ " violations")
  | .noAutomaticFix kind => Announcer.warning (kind.tag ++ " has no automatic fix; ignoring it")
  | .fixing target => announcer.step ("🔧 Starting Fix Logic on " ++ target)
  | .planned file line description =>
    Announcer.debug (file ++ ":" ++ toString line ++ " " ++ description)
  | .repaired file dryRun edits =>
    announcer.step
      ("file=" ++ file ++ " status=" ++ (if dryRun then "dry-run" else "success") ++ " fixes=" ++
        toString edits)
  | .repairFailed file cause =>
    Announcer.error ("file=" ++ file ++ " status=failed error=" ++ cause.message)
  | .repairsDone dryRun files =>
    announcer.step
      ("🛠️ Fix Suite complete. " ++
        (if dryRun then "Files that would be repaired" else "Files repaired") ++ ": " ++
        toString files)
  | .reportWritten file => announcer.step ("Report written to " ++ file)
  | .refused cause => Announcer.error (cause.message words)

end Notice

end CrateAudit

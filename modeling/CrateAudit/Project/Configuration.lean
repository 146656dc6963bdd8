/-
This file finds the settings of a run: in the file that the caller names, or else in
the metadata of the nearest manifest above the target. A manifest that cannot be opened
or is no document is passed over. What the program cannot read to its end is not, and
neither is a path that the system fails to look up: there the search breaks off.
-/

import CrateAudit.FaultWords
import CrateAudit.Project.Disk
import CrateAudit.Settings
import CrateAudit.Source

namespace CrateAudit

/-- Why a run has no settings. The names of files are those that the caller gave. -/
inductive ConfigurationFault where
  | unreadable (file : String) (cause : FileFault)
  | malformed (file : String) (cause : Toml.Fault)
  | unread (cause : Toml.Obstacle)
  | nullInName
  | lookup (path : Path) (cause : SystemFault)
  | settings (cause : Settings.Fault)
  | workersNotPositive
  deriving DecidableEq, Repr

namespace ConfigurationFault

def message (words : FaultWords) : ConfigurationFault → String
  | .unreadable file cause => "Cannot read config file " ++ file ++ ": " ++ cause.message
  | .malformed file cause => "Invalid TOML in " ++ file ++ ": " ++ words.toml cause
  | .unread cause => words.obstacle cause
  | .nullInName => "embedded null byte"
  | .lookup path cause => (FileFault.system cause path).message
  | .settings cause => cause.message words.regex
  | .workersNotPositive => "--workers must be a positive integer"

/-- The custom rule that the complaint is about. -/
def ruleName? : ConfigurationFault → Option String
  | .settings cause => cause.ruleName?
  | .unreadable _ _ | .malformed _ _ | .unread _ | .nullInName | .lookup _ _
  | .workersNotPositive => none

/-- Whether the fault is no reason to refuse a run: the program could not go on. -/
def isBreakdown : ConfigurationFault → Bool
  | .unread _ | .nullInName | .lookup _ _ => true
  | .settings cause => cause.isBreakdown
  | .unreadable _ _ | .malformed _ _ | .workersNotPositive => false

/-- Whether a breakdown comes from a text or a number that has no use where it stands. -/
def isValueFault : ConfigurationFault → Bool
  | .unread .notUtf8 | .unread (.tooManyDigits _) | .nullInName
  | .settings (.unshown .tooManyDigits) => true
  | _ => false

end ConfigurationFault

namespace Project

/-- The name of the table that holds the settings. -/
def tableName : String := "rust-compliance"

/-- The settings in the metadata of a section. -/
def sectionTable? (document : Table) (sectionName : String) : Option Table := do
  let entries ← (← document.lookup sectionName).asTable?
  let metadata ← (← entries.lookup "metadata").asTable?
  (← metadata.lookup tableName).asTable?

/-- The settings in the metadata of a manifest: those of the package, or else those of the
workspace. -/
def metadataTable (document : Table) : Table :=
  ((sectionTable? document "package").or (sectionTable? document "workspace")).getD []

/-- A directory and the ones above it, from the inside out. -/
def enclosingPlaces (place : List String) : List (List String) :=
  (List.range (place.length + 1)).reverse.map place.take

section

variable (disk : Disk) (interpreter : Interpreter)

/-- The manifest of a directory. -/
def manifestPath (place : List String) : Path := ⟨.root, place ++ [Source.manifestName]⟩

/-- The content of the manifest in a directory, if it can be opened. -/
def manifestBytes? (place : List String) : Option Bytes :=
  match disk.tree.get? (manifestPath place).names with
  | some (.file bytes) =>
    if disk.locked.contains (manifestPath place).names then none else some bytes
  | some (.directory _) | none => none

/-- The settings in the manifest of a directory, which are often none. -/
def tableAt (place : List String) : Except ConfigurationFault Table :=
  match disk.barred (manifestPath place) with
  | some cause => .error (.lookup (manifestPath place) cause)
  | none =>
    match (manifestBytes? disk place).map (Toml.readBytes · interpreter.tooDeepToRead) with
    | none | some (.error (.malformed _)) => .ok []
    | some (.error (.obstacle cause)) => .error (.unread cause)
    | some (.ok document) => .ok (metadataTable document)

/-- The settings of the first directory whose manifest has any. -/
def firstTable : List (List String) → Except ConfigurationFault Table
  | [] => .ok []
  | place :: rest => do
    let table ← tableAt disk interpreter place
    if table.isEmpty then firstTable rest else return table

/-- The directory in which the search for a manifest starts. -/
def searchStart (target : String) : List String :=
  if target.isEmpty then disk.workingDirectory
  else
    let path := disk.resolve (.ofText target)
    if disk.holdsFile path then path.parent.names else path.names

/-- The settings in the nearest manifest at or above a target. -/
def nearestTable (target : String) : Except ConfigurationFault Table :=
  let path := disk.resolve (.ofText target)
  match disk.barred path with
  | some cause => .error (.lookup path cause)
  | none => firstTable disk interpreter (enclosingPlaces (searchStart disk target))

/-- The settings in a document: a table of its own, the metadata of a manifest, or all of it. -/
def settingsTable (fileName : String) (document : Table) : Table :=
  match document.lookup tableName with
  | some (.table entries) => entries
  | _ => if fileName == Source.manifestName then metadataTable document else document

/-- The settings in a file. -/
def tableInFile (file : String) : Except ConfigurationFault Table :=
  if file.toList.contains '\x00' then .error .nullInName
  else
    let path := Path.ofText file
    match disk.readBytes path with
    | .error cause => .error (.unreadable file cause)
    | .ok bytes =>
      match Toml.readBytes bytes interpreter.tooDeepToRead with
      | .error (.obstacle cause) => .error (.unread cause)
      | .error (.malformed cause) => .error (.malformed file cause)
      | .ok document => .ok (settingsTable path.name document)

/-- The settings with a number of workers, if one is asked for. -/
def withWorkers (workers : Option Int) (settings : Settings) :
    Settings.Noted (Except ConfigurationFault Settings) :=
  match workers with
  | none => ([], .ok settings)
  | some count =>
    if count ≤ 0 then ([], .error .workersNotPositive)
    else
      let (warnings, result) := settings.override [("max_workers", .integer count)] interpreter
      (warnings, result.mapError .settings)

/-- The table of settings for a run on a target. -/
def foundTable (target : String) (file : Option String) : Except ConfigurationFault Table :=
  match file with
  | some file => tableInFile disk interpreter file
  | none => nearestTable disk interpreter target

/-- The settings of a run on a target. -/
def configure (target : String) (file : Option String) (workers : Option Int) :
    Settings.Noted (Except ConfigurationFault Settings) :=
  match foundTable disk interpreter target file with
  | .error fault => ([], .error fault)
  | .ok table =>
    match Settings.read table interpreter with
    | (warnings, .error fault) => (warnings, .error (.settings fault))
    | (warnings, .ok settings) =>
      let (later, result) := withWorkers interpreter workers settings
      (warnings ++ later, result)

end

end Project

end CrateAudit

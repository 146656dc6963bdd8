/-
This file holds the voice of a run: what it announces is shown to the operator, and
recorded in a log under the name of the run.
-/

import CrateAudit.Report.Wording
import CrateAudit.Text.LetterCase

namespace CrateAudit

/-- How important a record of the log is. -/
inductive Level where
  | debug
  | info
  | warning
  | error
  deriving DecidableEq, Repr

/-- Something announced: the lines shown, and the record of the log. -/
structure Announcement where
  shown : List String
  level : Level
  message : String
  deriving DecidableEq, Repr

/-- A voice with a name, a colour and a greeting. -/
structure Announcer where
  name : String
  color : String
  welcome : String
  deriving DecidableEq, Repr

namespace Announcer

/-- The voice of the program. -/
def standard : Announcer := ⟨"RUST-COMPLIANCE", "dark_orange", "Scanner Online"⟩

/-- The name of the log: small letters, with underscores for blanks. A voice without a name
writes to the common log. -/
def logName (announcer : Announcer) : String :=
  let name := (Text.toSmall announcer.name).map fun character =>
    if character = ' ' then '_' else character
  if name.isEmpty then "root" else name

/-- Shows the banner and the greeting. -/
def greeting (announcer : Announcer) : Announcement :=
  ⟨[Report.banner,
      "[bold " ++ announcer.color ++ "]" ++ announcer.name ++ "[/] v" ++ Report.version ++ ": " ++
        announcer.welcome],
    .info, announcer.name ++ " v" ++ Report.version ++ " started"⟩

def step (announcer : Announcer) (message : String) : Announcement :=
  ⟨["[" ++ announcer.color ++ "]>>[/] " ++ message], .info, message⟩

def warning (message : String) : Announcement :=
  ⟨["[yellow]WARNING[/] " ++ message], .warning, message⟩

def error (message : String) : Announcement :=
  ⟨["[bold red]ERROR[/] " ++ message], .error, message⟩

/-- Records without showing. -/
def debug (message : String) : Announcement :=
  ⟨[], .debug, message⟩

end Announcer

end CrateAudit

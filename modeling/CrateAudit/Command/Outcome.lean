/-
This file holds what a command leads to: what it told and printed, the disk it leaves,
and how it ended. A command ends with a status, or breaks off because of something
that none of its statuses stands for. What it runs on decides which texts it can show:
a text whose markup is wrong, or that an output has no encoding for, breaks it off.
-/

import CrateAudit.Notice
import CrateAudit.Report.Terminal

namespace CrateAudit.Command

/-- What a command runs on: an interpreter, the words for faults that are not its own, and the texts
that the console shows and that the standard output takes. -/
structure Host where
  interpreter : Interpreter
  words : FaultWords
  shows : String → Bool
  takes : String → Bool

namespace Host

/-- One that shows and takes every text. -/
def plain : Host := ⟨.plain, .plain, fun _ => true, fun _ => true⟩

/-- The same host, showing and taking every text. -/
def indulgent (host : Host) : Host :=
  { host with shows := fun _ => true, takes := fun _ => true }

end Host

/-- Why a command breaks off. -/
inductive Breakdown where
  | lookup (path : Path) (cause : SystemFault)
  | configuration (cause : ConfigurationFault)
  | text (text : String)
  | file (cause : FileFault)
  | guidance (cause : Guidance.Fault)
  deriving DecidableEq, Repr

/-- How a command ends. -/
inductive Ending where
  | status (code : Nat)
  | broken (cause : Breakdown)
  deriving DecidableEq, Repr

/-- Nothing was found. -/
def compliantStatus : Nat := 0

/-- Something was found. -/
def violationsStatus : Nat := 1

/-- The command cannot be carried out as asked. -/
def refusedStatus : Nat := 2

/-- What a command leads to. The texts of the output are lines or documents, each with a line feed
after it. -/
structure Outcome where
  notices : List Notice
  warnings : List Settings.Warning
  prints : List Report.Printed
  output : List String
  disk : Disk
  ending : Ending

namespace Outcome

/-- The command has done nothing yet and will end well. -/
def start (disk : Disk) : Outcome :=
  ⟨[], [], [], [], disk, .status compliantStatus⟩

/-- Goes on unless the command has broken off. -/
def andThen (outcome : Outcome) (next : Outcome → Outcome) : Outcome :=
  match outcome.ending with
  | .broken _ => outcome
  | .status _ => next outcome

/-- Ends the command. -/
def endWith (ending : Ending) (outcome : Outcome) : Outcome :=
  outcome.andThen fun outcome => { outcome with ending }

def finish (outcome : Outcome) (code : Nat) : Outcome :=
  outcome.endWith (.status code)

/-- Breaks the command off. -/
def break_ (outcome : Outcome) (cause : Breakdown) : Outcome :=
  outcome.endWith (.broken cause)

/-- Goes on if all texts are accepted. The first one that is not breaks the command off. -/
def putting (accepts : String → Bool) (texts : List String) (next : Outcome → Outcome)
    (outcome : Outcome) : Outcome :=
  match texts.find? fun text => !accepts text with
  | some text => outcome.break_ (.text text)
  | none => outcome.andThen next

def tell (host : Host) (notice : Notice) (outcome : Outcome) : Outcome :=
  outcome.putting host.shows (notice.announce .standard host.words).shown fun outcome =>
    { outcome with notices := outcome.notices ++ [notice] }

def tellAll (host : Host) (notices : List Notice) (outcome : Outcome) : Outcome :=
  notices.foldl (fun outcome notice => outcome.tell host notice) outcome

def print (host : Host) (printed : Report.Printed) (outcome : Outcome) : Outcome :=
  outcome.putting host.shows printed.texts fun outcome =>
    { outcome with prints := outcome.prints ++ [printed] }

def printAll (host : Host) (prints : List Report.Printed) (outcome : Outcome) : Outcome :=
  prints.foldl (fun outcome printed => outcome.print host printed) outcome

/-- Writes a text to the output. -/
def write (host : Host) (text : String) (outcome : Outcome) : Outcome :=
  outcome.putting host.takes [text] fun outcome =>
    { outcome with output := outcome.output ++ [text] }

/-- Warns in the log, which takes every text. -/
def warn (warnings : List Settings.Warning) (outcome : Outcome) : Outcome :=
  outcome.andThen fun outcome => { outcome with warnings := outcome.warnings ++ warnings }

/-- Refuses the command. -/
def refuse (host : Host) (cause : Refusal) (outcome : Outcome) : Outcome :=
  (outcome.tell host (.refused cause)).finish refusedStatus

/-- Goes on if the system can look up a path. -/
def reaching (path : Path) (disk : Disk) (next : Outcome → Outcome) (outcome : Outcome) :
    Outcome :=
  match disk.barred path with
  | some cause => outcome.break_ (.lookup path cause)
  | none => next outcome

end Outcome

end CrateAudit.Command

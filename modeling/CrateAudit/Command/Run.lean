/-
This file carries out the requests of a command line: an audit, a repair, the code
around one line, and the list of rules. What is wrong with a request is found before
any source is read.
-/

import CrateAudit.Command.Outcome
import CrateAudit.Command.Request
import CrateAudit.Project.Fixing
import CrateAudit.Report.Document
import CrateAudit.Report.Markdown

namespace CrateAudit.Command

/-- What every command can draw on. -/
structure Session where
  disk : Disk
  guidance : Guidance
  time : String
  host : Host

/-! ### Settings -/

/-- Ends a command that has no settings. -/
def endWithoutSettings (host : Host) (cause : ConfigurationFault) (outcome : Outcome) : Outcome :=
  if cause.isBreakdown then outcome.break_ (.configuration cause)
  else outcome.refuse host (.configuration cause)

/-- Goes on with the settings of a run, or ends it if there are none. -/
def withSettings (session : Session) (target : String) (file : Option String)
    (workers : Option Int) (otherwise : ConfigurationFault → Outcome → Outcome)
    (next : Settings → Outcome → Outcome) (outcome : Outcome) : Outcome :=
  let (warnings, result) := Project.configure session.disk session.host.interpreter target
    (file.map fun name => (Path.ofText name).text) workers
  match result with
  | .error cause => otherwise cause (outcome.warn warnings)
  | .ok settings => next settings (outcome.warn warnings)

/-! ### Audit -/

/-- The formats of a report. -/
inductive Format where
  | terminal
  | json
  | markdown
  deriving DecidableEq, Repr

def formatNamed? (name : String) : Option Format :=
  if name == "terminal" then some .terminal
  else if name == "json" then some .json
  else if name == "markdown" then some .markdown
  else none

def viewNamed? (name : String) : Option Report.View :=
  if name == "by_kind" then some .byKind
  else if name == "by_file" then some .byFile
  else none

/-- Puts a document into the output, or into a file that was named for it. -/
def emit (host : Host) (text : String) (file : Option String) (outcome : Outcome) : Outcome :=
  match file with
  | none => outcome.write host text
  | some name =>
    let path := Path.ofText name
    outcome.andThen fun outcome =>
      match outcome.disk.writeText path text.toList with
      | .error cause => outcome.break_ (.file cause)
      | .ok disk => { outcome with disk }.tell host (.reportWritten path.text)

/-- The document of an audit. -/
def document (session : Session) (format : Format) (withContext : Bool) (audit : Audit) :
    Except Guidance.Fault String := do
  let analyses ←
    Analysis.ofViolations session.guidance audit.sources withContext audit.violations
  match format with
  | .json => Report.json session.guidance audit (some analyses) session.time
  | .terminal | .markdown =>
    Report.markdown session.guidance audit (some analyses) session.time

/-- Reports an audit. -/
def report (session : Session) (options : CheckOptions) (format : Format) (view : Report.View)
    (audit : Audit) (outcome : Outcome) : Outcome :=
  match format with
  | .terminal =>
    match Report.auditPrints session.guidance audit view with
    | .error cause => outcome.break_ (.guidance cause)
    | .ok prints => outcome.printAll session.host prints
  | .json | .markdown =>
    match document session format options.withContext audit with
    | .error cause => outcome.break_ (.guidance cause)
    | .ok text => outcome |> emit session.host text options.output

/-- The status of an audit. -/
def auditStatus (audit : Audit) : Nat :=
  if audit.summary.isCompliant then compliantStatus else violationsStatus

/-- Audits the target with its settings. -/
def checkWith (session : Session) (options : CheckOptions) (format : Format)
    (view : Report.View) (target : String) (settings : Settings) (outcome : Outcome) : Outcome :=
  outcome.reaching (session.disk.resolve (.ofText target)) session.disk fun outcome =>
    let (notices, audit) := Project.audit settings session.disk target
    (report session options format view audit (outcome.tellAll session.host notices)).finish
      (auditStatus audit)

/-- Audits a target that can be looked up. -/
def checkTarget (session : Session) (options : CheckOptions) (format : Format)
    (view : Report.View) (path : Path) (outcome : Outcome) : Outcome :=
  if !session.disk.pathExists path then outcome.refuse session.host (.targetMissing path.text)
  else
    let greeted := if format = .terminal then outcome.tell session.host .greeting else outcome
    greeted |> withSettings session path.text options.settingsFile options.workers
      (endWithoutSettings session.host) (checkWith session options format view path.text)

def check (session : Session) (options : CheckOptions) : Outcome :=
  let start := Outcome.start session.disk
  match formatNamed? options.format, viewNamed? options.view with
  | none, _ => start.refuse session.host (.unknownFormat options.format)
  | some _, none => start.refuse session.host (.unknownView options.view)
  | some format, some view =>
    let path := Path.ofText options.target
    start.reaching path session.disk (checkTarget session options format view path)

/-! ### Repair -/

/-- The kinds with tags, or the first tag that no kind has. -/
def kindsNamed : List String → Except String (List Kind)
  | [] => .ok []
  | tag :: rest =>
    match Kind.ofTag? tag with
    | none => .error tag
    | some kind => (kindsNamed rest).map (kind :: ·)

/-- What the tags of a request stand for. -/
def repairOptions (options : FixOptions) : Except String Project.RepairOptions := do
  let only ← kindsNamed options.only
  let skip ← kindsNamed options.skip
  return ⟨only, skip, options.dryRun⟩

/-- Fixes the target with its settings. The console is taken to show all that a repair tells of
files, since a repair that breaks off between two files has no outcome of its own here. -/
def fixWith (session : Session) (options : FixOptions) (target : String) (settings : Settings)
    (outcome : Outcome) : Outcome :=
  match repairOptions options with
  | .error tag => outcome.refuse session.host (.unknownKind tag)
  | .ok chosen =>
    outcome.reaching (session.disk.resolve (.ofText target)) session.disk fun outcome =>
      outcome.andThen fun outcome =>
        let run := Project.repair settings session.disk target chosen
        ({ outcome with disk := run.disk }.tellAll session.host.indulgent run.notices).printAll
          session.host (Report.repairPrints run.repair)

/-- Ends a repair that has no settings. A value that has no use where it stands is a reason to refuse
it. -/
def endRepairWithoutSettings (host : Host) (cause : ConfigurationFault) (outcome : Outcome) :
    Outcome :=
  if cause.isValueFault then outcome.refuse host (.value cause)
  else endWithoutSettings host cause outcome

def fix (session : Session) (options : FixOptions) : Outcome :=
  let path := Path.ofText options.target
  (Outcome.start session.disk).reaching path session.disk fun start =>
    if !session.disk.pathExists path then start.refuse session.host (.targetMissing path.text)
    else
      start.tell session.host .greeting |> withSettings session path.text options.settingsFile none
        (endRepairWithoutSettings session.host) (fixWith session options path.text)

/-! ### The code around a line -/

/-- Shows the code around a line of a source. -/
def showContext (host : Host) (source : Source) (line : Int) (outcome : Outcome) : Outcome :=
  if 1 ≤ line ∧ line ≤ max source.lines.length 1 then
    outcome.write host ((Report.contextDocument (Analysis.contextAt source line)).render 0)
  else outcome.refuse host (.lineOutside line source.path source.lines.length)

def context (session : Session) (file : String) (line : Int) : Outcome :=
  let path := Path.ofText file
  (Outcome.start session.disk).reaching path session.disk fun start =>
    if !session.disk.holdsFile path then start.refuse session.host (.notFile path.text)
    else
      start |> withSettings session path.text none none (endWithoutSettings session.host)
        fun _ outcome =>
          match session.disk.readText path with
          | .error cause => outcome.break_ (.file cause)
          | .ok content => outcome |> showContext session.host (.ofText path.text content) line

/-! ### The list of rules -/

/-- A text with blanks after it up to a width. -/
def padded (width : Nat) (text : String) : String :=
  text ++ String.ofList (List.replicate (width - text.length) ' ')

/-- The line for a rule. -/
def ruleLine (rule : Rule) : String :=
  padded 20 rule.name ++ " " ++ padded 20 rule.kind.tag ++ " " ++ padded 8 rule.severity.label ++
    " " ++ padded 9 (if rule.custom then "custom" else "built-in") ++ " " ++ rule.pattern

def patterns (session : Session) (file : Option String) : Outcome :=
  Outcome.start session.disk |> withSettings session "." file none
    (endWithoutSettings session.host) fun settings outcome =>
      (settings.rules.active.map ruleLine).foldl
        (fun outcome line => outcome.write session.host line) outcome

/-! ### Any command -/

/-- Carries out a request. -/
def run (session : Session) : Request → Outcome
  | .help => Outcome.start session.disk
  | .check options => check session options
  | .fix options => fix session options
  | .context file line => context session file line
  | .patterns file => patterns session file

/-- Carries out a command line. A wrong one is refused without a word. -/
def runWords (session : Session) (words : List String) : Outcome :=
  match Request.read words with
  | some request => run session request
  | none => (Outcome.start session.disk).finish refusedStatus

end CrateAudit.Command

/-
This file holds the requests that a command line can make and reads them from its
words. A wrong command line has no request; asking for help goes before everything
but an unknown option.
-/

import CrateAudit.Command.Arguments
import CrateAudit.Number.Integer

namespace CrateAudit.Command

/-- What `check` is asked for. The names of the format and the view are those given. -/
structure CheckOptions where
  target : String
  format : String
  view : String
  settingsFile : Option String
  workers : Option Int
  withContext : Bool
  output : Option String
  deriving DecidableEq, Repr

/-- What `fix` is asked for. The kinds are the tags given. -/
structure FixOptions where
  target : String
  dryRun : Bool
  only : List String
  skip : List String
  settingsFile : Option String
  deriving DecidableEq, Repr

/-- What a command line asks for. -/
inductive Request where
  | help
  | check (options : CheckOptions)
  | fix (options : FixOptions)
  | context (file : String) (line : Int)
  | patterns (settingsFile : Option String)
  deriving DecidableEq, Repr

namespace Request

/-! ### Options -/

def helpShape : OptionShape := ⟨"help", ["--help"], false⟩

def configShape : OptionShape := ⟨"config", ["--config", "-c"], true⟩

def checkShapes : List OptionShape :=
  [⟨"format", ["--format", "-f"], true⟩, ⟨"view", ["--view"], true⟩, configShape,
    ⟨"workers", ["--workers"], true⟩, ⟨"with-context", ["--with-context"], false⟩,
    ⟨"output", ["--output", "-o"], true⟩, helpShape]

def fixShapes : List OptionShape :=
  [⟨"dry-run", ["--dry-run"], false⟩, ⟨"only", ["--only"], true⟩, ⟨"skip", ["--skip"], true⟩,
    configShape, helpShape]

def contextShapes : List OptionShape := [helpShape]

def patternsShapes : List OptionShape := [configShape, helpShape]

/-! ### Arguments -/

/-- The target: the only argument, or the directory one is in. -/
def target? : List String → Option String
  | [] => some "."
  | [word] => some word
  | _ => none

/-- The number that an option gives, if it is given. A text that is no number is refused. -/
def number? : Option String → Option (Option Int)
  | none => some none
  | some text => (Number.readInteger? text.toList).map some

def readCheck (given : Given) : Option Request := do
  let target ← target? given.words
  let workers ← number? (given.value? "workers")
  return .check {
    target
    format := (given.value? "format").getD "terminal"
    view := (given.value? "view").getD "by_kind"
    settingsFile := given.value? "config"
    workers
    withContext := given.has "with-context"
    output := given.value? "output" }

def readFix (given : Given) : Option Request := do
  let target ← target? given.words
  return .fix {
    target
    dryRun := given.has "dry-run"
    only := given.valuesOf "only"
    skip := given.valuesOf "skip"
    settingsFile := given.value? "config" }

def readContext (given : Given) : Option Request :=
  match given.words with
  | [file, line] => (Number.readInteger? line.toList).map (.context file)
  | _ => none

def readPatterns (given : Given) : Option Request :=
  if given.words.isEmpty then some (.patterns (given.value? "config")) else none

/-! ### Commands -/

/-- Reads the words of a command, unless they ask for help. -/
def readWith (shapes : List OptionShape) (readGiven : Given → Option Request)
    (words : List String) : Option Request :=
  (sortWords shapes words).bind fun given =>
    if given.has helpShape.key then some .help else readGiven given

/-- Reads a command and its words. -/
def readCommand : List String → Option Request
  | [] => none
  | command :: words =>
    if command == "check" then readWith checkShapes readCheck words
    else if command == "fix" then readWith fixShapes readFix words
    else if command == "context" then readWith contextShapes readContext words
    else if command == "patterns" then readWith patternsShapes readPatterns words
    else none

/-- Reads the options before the command; `helpAsked` tells whether one of them asked for help. -/
def readFrom (helpAsked : Bool) : List String → Option Request
  | [] => if helpAsked then some .help else none
  | word :: rest =>
    if word == "--" then if helpAsked then some .help else readCommand rest
    else if word == "--help" then readFrom true rest
    else if isOption word then none
    else if helpAsked then some .help
    else readCommand (word :: rest)

/-- Reads a command line. -/
def read (words : List String) : Option Request :=
  readFrom false words

end Request

end CrateAudit.Command

/-
This file scans one Rust file. Every check looks at one line and what is around it;
the findings of all lines are put in order at the end. The scan depends on the path,
the text and the settings only.
-/

import CrateAudit.Scan.Docs
import CrateAudit.Scan.TestScope
import CrateAudit.Settings
import CrateAudit.Source

namespace CrateAudit.Scan

open Regex (inOrder exactly parts many atLeastOne blank noneOf perhaps firstOf)

/-! ### Exemptions -/

/-- Whether a file holds tests, by its path. -/
def isTestFile (path : String) : Bool :=
  let slashed := Source.withSlashes path
  Text.includes "/tests/".toList slashed || "tests/".toList.isPrefixOf slashed ||
    "_test.rs".toList.isSuffixOf slashed

/-- An attribute that allows or expects lints; the second group lists them. -/
def lintAttribute : Regex :=
  inOrder
    [exactly '#', perhaps (exactly '!'), exactly '[', many blank,
      .group 1 (firstOf [inOrder (parts "allow"), inOrder (parts "expect")]), many blank,
      exactly '(', .group 2 (inOrder [many (noneOf [')'])]), exactly ')']

/-- Whether an attribute in code on some line allows or expects a lint. -/
def allowsLint (lint : String) (lines : List Line) : Bool :=
  lines.any fun line =>
    (lintAttribute.matchesOf (Rust.codeOnly line)).any fun found =>
      (found.group? 2).any (Text.includes lint.toList)

/-- What a file as a whole is exempt from. -/
structure Exemptions where
  isTest : Bool
  unwrap : Bool
  expect : Bool
  deriving DecidableEq, Repr

/-- The exemptions of a file that is recognised as a test file by `testPath`. -/
def exemptions (settings : Settings) (testPath : String) (lines : List Line) : Exemptions :=
  ⟨isTestFile testPath,
    allowsLint "unwrap_used" lines || settings.allowUnwrap,
    allowsLint "expect_used" lines || settings.allowExpect⟩

/-! ### Checks -/

/-- Whether underscores are checked at all. -/
def checksUnderscores (settings : Settings) : Bool :=
  settings.isEnabled .underscoreBandaid && settings.banUnderscoreBandaid

/-- A file with too many lines is reported at its last one. -/
def checkFileSize (settings : Settings) (source : Source) : List Violation :=
  let count := source.lines.length
  if settings.isEnabled .fileTooLarge && settings.maxFileLines < count then
    [⟨.fileTooLarge, source.path, count,
      "File has " ++ toString count ++ " lines, maximum allowed is " ++
        toString settings.maxFileLines, .error⟩]
  else []

/-- A name at the start of a word with a colon after it. -/
def parameterNamed (name : Line) : Regex :=
  inOrder ([.anchor .wordEdge] ++ name.map exactly ++ [many blank, exactly ':'])

/-- The first line of a signature on which a parameter stands in code; lines come with their
indices. -/
def parameterLine? (name : Line) (signature : List (Line × Nat)) : Option Nat :=
  (signature.find? fun entry =>
    (parameterNamed name).occursIn entry.1 && !Rust.isInert entry.1 name).map (·.2)

/-- The first underscore parameter of the function that starts at a line. -/
def checkUnderscoreParameter (source : Source) (start : Nat) : List Violation :=
  let rule := Rule.underscoreParameterUse
  let signature := Rust.signatureAt source.lines start
  match (rule.regex.search? signature.text).bind (·.group? 1) with
  | none => []
  | some name =>
    let last := signature.braceIndex.toNat
    let own := ((source.lines.take (last + 1)).zipIdx).drop start
    match parameterLine? name own with
    | none => []
    | some index =>
      [⟨rule.kind, source.path, index + 1, Rule.underscoreParameter (String.ofList name),
        rule.severity⟩]

/-- The function that starts at a line: its size and its parameters. -/
def checkFunction (settings : Settings) (source : Source) (start : Nat) : List Violation :=
  match Rust.functionAt? source.lines start with
  | none => []
  | some function =>
    let rule := Rule.functionDefinition
    let size :=
      if settings.isEnabled .functionTooLarge && (settings.maxFunctionLines : Int) < function.length
      then
        [⟨rule.kind, source.path, function.firstLine,
          function.name ++ ": " ++
            Rule.tooManyLines (toString function.length) (toString settings.maxFunctionLines),
          rule.severity⟩]
      else []
    size ++ if checksUnderscores settings then checkUnderscoreParameter source start else []

/-- A line on which a rule matches, unless the text it looks for is no code there. -/
def checkLiteral (rule : Rule) (source : Source) (index : Nat) (line : Line) : List Violation :=
  if rule.regex.occursIn line && !Rust.isInert line ((rule.literal.getD "").toList) then
    [rule.located source.path index]
  else []

/-- A call that panics on failure. -/
def checkCall (settings : Settings) (rule : Rule) (source : Source) (index : Nat) (line : Line) :
    List Violation :=
  if settings.isEnabled rule.kind then checkLiteral rule source index line else []

/-- A public item without documentation. -/
def checkDocs (settings : Settings) (source : Source) (index : Nat) (line : Line) :
    List Violation :=
  if settings.isEnabled .missingDocs then
    match (publicItem.matchStart? line).bind (·.group? 4) with
    | none => []
    | some item =>
      if hasDocs source.lines index then []
      else
        [⟨.missingDocs, source.path, index + 1,
          "Public " ++ String.ofList item ++ " is missing a /// doc comment", .warning⟩]
  else []

def checkLineLength (settings : Settings) (source : Source) (index : Nat) (line : Line) :
    List Violation :=
  if settings.isEnabled .lineTooLong && settings.maxLineLength < line.length then
    [⟨.lineTooLong, source.path, index + 1,
      "Line has " ++ toString line.length ++ " characters, maximum allowed is " ++
        toString settings.maxLineLength, .warning⟩]
  else []

/-- A custom rule, by the text of its first match. -/
def checkCustomRule (source : Source) (index : Nat) (line : Line) (rule : Rule) :
    List Violation :=
  match rule.regex.search? line with
  | none => []
  | some found =>
    if Rust.isInert line found.text then []
    else
      [⟨rule.kind, source.path, index + 1, rule.message ++ " [" ++ rule.name ++ "]",
        rule.severity⟩]

def checkCustomRules (settings : Settings) (source : Source) (index : Nat) (line : Line) :
    List Violation :=
  (settings.rules.custom.filter fun rule => settings.isEnabled rule.kind).flatMap
    (checkCustomRule source index line)

/-- Everything that is checked on one line. `inTest` lines may panic and need no documentation. -/
def checkLine (settings : Settings) (exempt : Exemptions) (source : Source) (inTest : Bool)
    (index : Nat) (line : Line) : List Violation :=
  (if definesFunction line then checkFunction settings source index else []) ++
  (if checksUnderscores settings then checkLiteral Rule.underscoreBinding source index line
    else []) ++
  (if inTest then []
    else
      (if exempt.unwrap then [] else checkCall settings Rule.unwrapCall source index line) ++
      (if exempt.expect then [] else checkCall settings Rule.expectCall source index line) ++
      (if settings.requireDocumentation then checkDocs settings source index line else [])) ++
  checkLineLength settings source index line ++
  checkCustomRules settings source index line

/-- The findings on the lines from an index on, in a scope that the lines above have left. -/
def checkLinesFrom (settings : Settings) (exempt : Exemptions) (source : Source)
    (scope : TestScope) (index : Nat) : List Line → List Violation
  | [] => []
  | line :: rest =>
    let scope := scope.step source.lines index line
    checkLine settings exempt source (exempt.isTest || scope.contains index) index line ++
      checkLinesFrom settings exempt source scope (index + 1) rest

/-- The violations of a Rust file, by line and kind. The path that tells a test file may be
another than the one that reports show. -/
def rustFile (settings : Settings) (source : Source) (testPath : Option String) :
    List Violation :=
  let path := match testPath with
    | some path => if path.isEmpty then source.path else path
    | none => source.path
  let exempt := exemptions settings path source.lines
  Violation.sortInFile <|
    checkFileSize settings source ++
      checkLinesFrom settings exempt source .start 0 source.lines

end CrateAudit.Scan

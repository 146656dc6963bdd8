/-
This file scans a Rust file as one who has only the numbers of its lines: every line that
a check looks at besides its own is asked for by its index, and every group of a match by
its number. There is no result where a line is asked for that the file does not have, or
a group that the match does not have.
-/

import CrateAudit.Scan.RustFile

namespace CrateAudit.Scan.Numbered

/-! ### Items -/

/-- The lines of a signature from an index on, and the index of the line that ends it; the number
of lines if none does. -/
def signatureLines? (lines : List Line) (index : Nat) : Option (List Line × Nat) :=
  if index < lines.length then do
    let line ← lines[index]?
    if Rust.endsSignature line then return ([line], index)
    else
      let later ← signatureLines? lines (index + 1)
      return (line :: later.1, later.2)
  else return ([], index)
termination_by lines.length - index

/-- The signature that starts at a line. -/
def signature? (lines : List Line) (start : Nat) : Option Rust.Signature := do
  let own ← signatureLines? lines start
  return ⟨Rust.joinTrimmed own.1, min own.2 ((lines.length : Int) - 1)⟩

/-- The index of the last line of the item whose signature starts at a line. -/
def itemEnd? (lines : List Line) (start : Nat) : Option Int := do
  let signature ← signature? lines start
  Rust.blockEnd? lines signature.braceIndex

/-- The function whose signature starts at a line, if it has a name. -/
def function? (lines : List Line) (start : Nat) : Option (Option Rust.FunctionSpan) :=
  if start < lines.length then do
    let signature ← signature? lines start
    match Rust.functionName? signature.text with
    | none => return none
    | some name =>
      let last ← Rust.blockEnd? lines signature.braceIndex
      return some
        { name := String.ofList name
          firstLine := start + 1
          lastLine := last.toNat + 1
          returnsResult := Rust.returnsResult signature.text
          returnsOption := Rust.returnsOption signature.text }
  else return none

/-! ### Tests -/

/-- The effect of a line on the modules. -/
def stepModule? (scope : TestScope) (lines : List Line) (index : Nat) (line : Line) :
    Option TestScope :=
  let trimmed := Text.trim line
  if Text.includes testOnlyAttribute trimmed then
    if Text.includes "mod ".toList trimmed then do
      let last ← itemEnd? lines index
      return { scope with moduleLimit := max scope.moduleLimit (last.toNat + 1) }
    else return { scope with awaitsModule := true }
  else if scope.awaitsModule && moduleStart.startsLine line then do
    let last ← itemEnd? lines index
    return { scope with
      moduleLimit := max scope.moduleLimit (last.toNat + 1)
      awaitsModule := false }
  else if keepsWaiting trimmed then return scope
  else return { scope with awaitsModule := false }

/-- The effect of a line on the functions. -/
def stepFunction? (scope : TestScope) (lines : List Line) (index : Nat) (line : Line) :
    Option TestScope :=
  let trimmed := Text.trim line
  let opened : Option TestScope := do
    let last ← itemEnd? lines index
    return { scope with
      functionLimit := max scope.functionLimit (last.toNat + 1)
      awaitsFunction := false }
  if testAttributes.any (Text.includes · trimmed) then
    if definesFunction line then opened else return { scope with awaitsFunction := true }
  else if scope.awaitsFunction && Rule.functionDefinition.regex.startsLine line then opened
  else if keepsWaiting trimmed then return scope
  else return { scope with awaitsFunction := false }

/-- The scope after a line. -/
def step? (scope : TestScope) (lines : List Line) (index : Nat) (line : Line) :
    Option TestScope := do
  let scope ← stepModule? scope lines index line
  stepFunction? scope lines index line

/-! ### Exemptions -/

/-- What the attributes on some lines list. -/
def lintLists? (lines : List Line) : Option (List Line) :=
  (lines.flatMap fun line => lintAttribute.matchesOf (Rust.codeOnly line)).mapM (·.group? 2)

/-- The exemptions of a file. -/
def exemptions? (settings : Settings) (testPath : String) (lines : List Line) :
    Option Exemptions := do
  let lists ← lintLists? lines
  return ⟨isTestFile testPath,
    lists.any (Text.includes "unwrap_used".toList) || settings.allowUnwrap,
    lists.any (Text.includes "expect_used".toList) || settings.allowExpect⟩

/-! ### Checks -/

/-- The first of `count` lines from an index on with a parameter in code. -/
def parameterLine? (lines : List Line) (name : Line) (index : Nat) : Nat → Option (Option Nat)
  | 0 => return none
  | count + 1 => do
    let line ← lines[index]?
    if (parameterNamed name).occursIn line && !Rust.isInert line name then return some index
    else parameterLine? lines name (index + 1) count

/-- The first underscore parameter of the function that starts at a line. -/
def checkUnderscoreParameter? (source : Source) (start : Nat) : Option (List Violation) := do
  let rule := Rule.underscoreParameterUse
  let signature ← signature? source.lines start
  match rule.regex.search? signature.text with
  | none => return []
  | some found =>
    let name ← found.group? 1
    let stands ← parameterLine? source.lines name start (signature.braceIndex + 1 - start).toNat
    match stands with
    | none => return []
    | some index =>
      return [⟨rule.kind, source.path, index + 1, Rule.underscoreParameter (String.ofList name),
        rule.severity⟩]

/-- The function that starts at a line: its size and its parameters. -/
def checkFunction? (settings : Settings) (source : Source) (start : Nat) :
    Option (List Violation) := do
  match ← function? source.lines start with
  | none => return []
  | some function =>
    let rule := Rule.functionDefinition
    let size :=
      if settings.isEnabled .functionTooLarge && (settings.maxFunctionLines : Int) < function.length
      then
        [⟨rule.kind, source.path, function.firstLine,
          function.name ++ ": " ++
            Rule.tooManyLines (toString function.length) (toString settings.maxFunctionLines),
          rule.severity⟩]
      else []
    let parameters ←
      if checksUnderscores settings then checkUnderscoreParameter? source start else pure []
    return size ++ parameters

/-- Whether a doc comment is found above an index. `depth` brackets are open, seen from below. -/
def docsAbove? (lines : List Line) (depth : Int) : Nat → Option Bool
  | 0 => return false
  | previous + 1 => do
    let line ← lines[previous]?
    let trimmed := Text.trim line
    let code := Rust.codeOnly trimmed
    let balance := closingBalance code
    if "#[doc".toList.isPrefixOf trimmed then return true
    else if 0 < depth then docsAbove? lines (max (depth + balance) 0) previous
    else if trimmed.isEmpty || "#[".toList.isPrefixOf trimmed then docsAbove? lines depth previous
    else if 0 < balance && (Text.trimEnd code).getLast? = some ']' then
      docsAbove? lines balance previous
    else return "///".toList.isPrefixOf trimmed || "*/".toList.isSuffixOf trimmed

/-- A public item without documentation. -/
def checkDocs? (settings : Settings) (source : Source) (index : Nat) : Option (List Violation) :=
  if settings.isEnabled .missingDocs then do
    let line ← source.lines[index]?
    match publicItem.matchStart? line with
    | none => return []
    | some found =>
      if ← docsAbove? source.lines 0 index then return []
      else
        let item ← found.group? 4
        return [⟨.missingDocs, source.path, index + 1,
          "Public " ++ String.ofList item ++ " is missing a /// doc comment", .warning⟩]
  else return []

/-- Everything that is checked on one line. -/
def checkLine? (settings : Settings) (exempt : Exemptions) (source : Source) (inTest : Bool)
    (index : Nat) (line : Line) : Option (List Violation) := do
  let functions ← if definesFunction line then checkFunction? settings source index else pure []
  let docs ←
    if !inTest && settings.requireDocumentation then checkDocs? settings source index
    else pure []
  return functions ++
    (if checksUnderscores settings then checkLiteral Rule.underscoreBinding source index line
      else []) ++
    (if inTest then []
      else
        (if exempt.unwrap then [] else checkCall settings Rule.unwrapCall source index line) ++
        (if exempt.expect then [] else checkCall settings Rule.expectCall source index line) ++
        docs) ++
    checkLineLength settings source index line ++
    checkCustomRules settings source index line

/-- The findings on the lines from an index on. -/
def checkLinesFrom? (settings : Settings) (exempt : Exemptions) (source : Source)
    (scope : TestScope) (index : Nat) : List Line → Option (List Violation)
  | [] => return []
  | line :: rest => do
    let scope ← step? scope source.lines index line
    let here ← checkLine? settings exempt source (exempt.isTest || scope.contains index) index line
    let later ← checkLinesFrom? settings exempt source scope (index + 1) rest
    return here ++ later

/-- The violations of a Rust file, by line and kind. -/
def rustFile? (settings : Settings) (source : Source) (testPath : Option String) :
    Option (List Violation) := do
  let path := match testPath with
    | some path => if path.isEmpty then source.path else path
    | none => source.path
  let exempt ← exemptions? settings path source.lines
  let found ← checkLinesFrom? settings exempt source .start 0 source.lines
  return Violation.sortInFile (checkFileSize settings source ++ found)

end CrateAudit.Scan.Numbered

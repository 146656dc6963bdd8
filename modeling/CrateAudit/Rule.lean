/-
This file holds the rules of an audit. Five are built in; settings add others. A rule
is a search pattern with what to report where it matches. The patterns of the built-in
rules are given both as they are shown and as they are matched.
-/

import CrateAudit.Regex.Matching
import CrateAudit.Regex.Reading
import CrateAudit.Violation

namespace CrateAudit

/-- A rule. `literal` is the text whose place decides whether a match lies in code. -/
structure Rule where
  name : String
  pattern : String
  regex : Regex
  kind : Kind
  severity : Severity
  message : String
  literal : Option String
  custom : Bool
  deriving DecidableEq, Repr

/-- A rule as the settings describe it. -/
structure CustomRule where
  name : String
  pattern : String
  message : String
  severity : Severity
  enabled : Bool
  deriving DecidableEq, Repr

namespace Regex

/-- A letter or other character of a fixed text, one part each. -/
def parts (text : String) : List Regex :=
  text.toList.map exactly

end Regex

namespace Rule

open Regex (inOrder exactly parts many few atLeastOne perhaps blank wordCharacter noneOf)

def located (rule : Rule) (file : String) (index : Nat) : Violation :=
  ⟨rule.kind, file, index + 1, rule.message, rule.severity⟩

/-! ### Messages -/

def tooManyLines (length limit : String) : String :=
  "Function has " ++ length ++ " lines, maximum allowed is " ++ limit

def underscoreParameter (name : String) : String :=
  "BANNED: Underscore parameter (" ++ name ++ ") - fix the design instead of hiding warnings"

/-! ### Built-in rules -/

/-- `pub`, with the place it is visible in if one is given. -/
def visibility : List Regex :=
  parts "pub" ++
    [perhaps (.group 2 (inOrder ([exactly '('] ++ [many (noneOf [')'])] ++ [exactly ')'])))]

/-- The start of a line that defines a function. -/
def functionDefinition : Rule where
  name := "function_def"
  pattern := "^\\s*(pub(\\([^)]*\\))?\\s+)?(const\\s+)?(async\\s+)?(unsafe\\s+)?fn\\s+"
  regex := inOrder <|
    [.anchor .start, many blank,
      perhaps (.group 1 (inOrder (visibility ++ [atLeastOne blank]))),
      perhaps (.group 3 (inOrder (parts "const" ++ [atLeastOne blank]))),
      perhaps (.group 4 (inOrder (parts "async" ++ [atLeastOne blank]))),
      perhaps (.group 5 (inOrder (parts "unsafe" ++ [atLeastOne blank])))] ++
    parts "fn" ++ [atLeastOne blank]
  kind := .functionTooLarge
  severity := .error
  message := tooManyLines "\x7blength\x7d" "\x7blimit\x7d"
  literal := none
  custom := false

/-- A parameter whose name starts with an underscore, in a signature. -/
def underscoreParameterUse : Rule where
  name := "underscore_param"
  pattern := "fn\\s+\\w+[^\x7b]*?\\b(_\\w+)\\s*:"
  regex := inOrder <|
    parts "fn" ++
    [atLeastOne blank, atLeastOne wordCharacter, few (noneOf ['\x7b']), .anchor .wordEdge,
      .group 1 (inOrder [exactly '_', atLeastOne wordCharacter]), many blank, exactly ':']
  kind := .underscoreBandaid
  severity := .error
  message := underscoreParameter "\x7bname\x7d"
  literal := none
  custom := false

/-- A binding that discards its value. -/
def underscoreBinding : Rule where
  name := "underscore_let"
  pattern := "^\\s*let\\s+_\\s*="
  regex := inOrder <|
    [.anchor .start, many blank] ++ parts "let" ++
    [atLeastOne blank, exactly '_', many blank, exactly '=']
  kind := .underscoreBandaid
  severity := .error
  message :=
    "BANNED: `let _ =` discards a value - handle the result instead of silencing it"
  literal := some "let"
  custom := false

def unwrapCall : Rule where
  name := "unwrap_call"
  pattern := "\\.unwrap\\(\\)"
  regex := inOrder (parts ".unwrap()")
  kind := .unwrapInProduction
  severity := .error
  message := "BANNED: .unwrap() in production code - use proper error handling with ?"
  literal := some ".unwrap()"
  custom := false

def expectCall : Rule where
  name := "expect_call"
  pattern := "\\.expect\\("
  regex := inOrder (parts ".expect(")
  kind := .unwrapInProduction
  severity := .error
  message := "BANNED: .expect() in production code - use proper error handling with ?"
  literal := some ".expect("
  custom := false

/-- The built-in rules, in the order in which they are listed. -/
def builtIn : List Rule :=
  [functionDefinition, underscoreParameterUse, underscoreBinding, unwrapCall, expectCall]

/-- Whether the pattern that is shown is the one that is matched. -/
def isShownAsMatched (rule : Rule) : Bool :=
  match Regex.read rule.pattern with
  | .ok regex => regex == rule.regex
  | .error _ => false

theorem builtIn_isShownAsMatched : builtIn.all isShownAsMatched = true := by
  decide +kernel

/-! ### Rules from settings -/

/-- Why a rule from the settings is refused. -/
inductive Fault where
  | duplicate (name : String)
  | badPattern (name : String) (cause : Regex.Fault)
  | matchesEmpty (name : String)
  deriving DecidableEq, Repr

/-- The rule of a description whose pattern has been read. -/
def ofCustom (rule : CustomRule) (regex : Regex) : Rule :=
  { name := rule.name, pattern := rule.pattern, regex, kind := .customPattern,
    severity := rule.severity, message := rule.message, literal := none, custom := true }

/-- The rules of the descriptions that are switched on. Names count as used whether or not a
rule is switched on. -/
def compileAfter (compiler : String → Except Regex.Fault Regex) (seen : List String) :
    List CustomRule → Except Fault (List Rule)
  | [] => .ok []
  | rule :: rest =>
    if seen.contains rule.name then .error (.duplicate rule.name)
    else if !rule.enabled then compileAfter compiler (rule.name :: seen) rest
    else
      match compiler rule.pattern with
      | .error cause => .error (.badPattern rule.name cause)
      | .ok regex =>
        if regex.startsLine [] then .error (.matchesEmpty rule.name)
        else (compileAfter compiler (rule.name :: seen) rest).map (ofCustom rule regex :: ·)

def compile (rules : List CustomRule)
    (compiler : String → Except Regex.Fault Regex := Regex.read) : Except Fault (List Rule) :=
  compileAfter compiler [] rules

end Rule

/-- The rules of an audit and the kinds that it reports. -/
structure RuleSet where
  custom : List Rule
  kinds : List Kind
  deriving DecidableEq, Repr

namespace RuleSet

/-- Every kind is reported when none are named. -/
def make (rules : List CustomRule) (kinds : Option (List Kind))
    (compiler : String → Except Regex.Fault Regex := Regex.read) : Except Rule.Fault RuleSet :=
  (Rule.compile rules compiler).map fun custom => ⟨custom, kinds.getD Kind.all⟩

def isEnabled (rules : RuleSet) (kind : Kind) : Bool :=
  rules.kinds.contains kind

/-- The enabled kinds, in order. -/
def enabled (rules : RuleSet) : List Kind :=
  Kind.all.filter rules.isEnabled

/-- Every rule, the built-in ones first. -/
def every (rules : RuleSet) : List Rule :=
  Rule.builtIn ++ rules.custom

/-- The rules whose kind is enabled. -/
def active (rules : RuleSet) : List Rule :=
  rules.every.filter fun rule => rules.isEnabled rule.kind

/-- The first rule with a name. -/
def get? (rules : RuleSet) (name : String) : Option Rule :=
  rules.every.find? fun rule => rule.name == name

end RuleSet

end CrateAudit

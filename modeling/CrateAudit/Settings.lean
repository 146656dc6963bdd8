/-
This file holds the settings of an audit and reads them from a table. A setting of the
wrong shape is replaced by its default with a warning; the kinds to report and the
custom rules have no default to fall back to, so what is wrong with them is a fault.
Nothing invalid is left to be found while files are scanned. A value that has no text
where one is needed ends the reading; that is no judgement of the settings.
-/

import CrateAudit.Interpreter
import CrateAudit.Rule
import CrateAudit.Text.LetterCase

namespace CrateAudit

/-- The settings of an audit, with the table they come from. -/
structure Settings where
  source : Table
  kinds : Option (List Kind)
  customRules : List CustomRule
  rules : RuleSet
  maxFileLines : Nat
  maxFunctionLines : Nat
  maxLineLength : Nat
  maxWorkers : Nat
  banUnderscoreBandaid : Bool
  requireDocumentation : Bool
  allowUnwrap : Bool
  allowExpect : Bool
  allowedEditions : List String
  requiredDependencies : List String
  excludedDirectories : List String

namespace Settings

/-! ### What can be wrong -/

/-- A setting that is ignored or replaced by its default. -/
inductive Warning where
  | unknownKey (key : String)
  | notPositive (key : String) (default : Nat)
  | notBoolean (key : String) (default : Bool)
  | notList (key : String)
  deriving DecidableEq, Repr

namespace Warning

def message : Warning → String
  | .unknownKey key => "Configuration Warning: unknown key '" ++ key ++ "' is ignored."
  | .notPositive key default =>
    "Configuration Warning: '" ++ key ++ "' must be a positive integer; using " ++
      toString default ++ "."
  | .notBoolean key default =>
    "Configuration Warning: '" ++ key ++ "' must be true or false; using " ++
      Value.booleanText default ++ "."
  | .notList key => "Configuration Warning: '" ++ key ++ "' must be a list; using defaults."

end Warning

/-- Why a table gives no settings: a reason to refuse it, or a value without a text. Positions
count from zero. -/
inductive Fault where
  | kindsNotList
  | unknownKind (text : String)
  | kindTooLong
  | rulesNotList
  | ruleNotTable (position : Nat)
  | ruleWithoutName (position : Nat)
  | ruleWithoutPattern (name : String)
  | unknownSeverity (name shown : String)
  | rule (fault : Rule.Fault)
  | unshown (cause : Value.TextFault)
  deriving DecidableEq, Repr

namespace Fault

/-- Whether the fault is no reason to refuse the table: the program could not go on. -/
def isBreakdown : Fault → Bool
  | .unshown _ | .rule (.badPattern _ .repetitionTooLarge) => true
  | _ => false

/-- The complaint, given the words for what is wrong with a search pattern. -/
def message (describe : Regex.Fault → String) : Fault → String
  | .kindsNotList => "'enabled_kinds' must be a list of violation kinds"
  | .unknownKind text => "'enabled_kinds': " ++ Kind.unknownMessage text
  | .kindTooLong => "'enabled_kinds': " ++ Number.tooLongMessage none
  | .rulesNotList => "'custom_rules' must be an array of tables"
  | .ruleNotTable position => "custom_rules[" ++ toString position ++ "] must be a table"
  | .ruleWithoutName position => "custom_rules[" ++ toString position ++ "] is missing a 'name'"
  | .ruleWithoutPattern name => "Custom pattern '" ++ name ++ "' is missing a 'pattern'"
  | .unknownSeverity name shown =>
    "Custom pattern '" ++ name ++ "' has unknown severity " ++ shown ++
      " (use 'error' or 'warning')"
  | .rule (.duplicate name) => "Duplicate custom pattern name '" ++ name ++ "'"
  | .rule (.badPattern name cause) =>
    "Invalid regex for custom pattern '" ++ name ++ "': " ++ describe cause
  | .rule (.matchesEmpty name) =>
    "Custom pattern '" ++ name ++ "' matches the empty string and would flag every line"
  | .unshown cause => cause.message

/-- The custom rule that the complaint is about. -/
def ruleName? : Fault → Option String
  | .ruleWithoutPattern name | .unknownSeverity name _ | .rule (.duplicate name)
  | .rule (.badPattern name _) | .rule (.matchesEmpty name) => some name
  | .kindsNotList | .unknownKind _ | .kindTooLong | .rulesNotList | .ruleNotTable _
  | .ruleWithoutName _ | .unshown _ => none

end Fault

/-! ### Kinds and custom rules -/

section

variable (interpreter : Interpreter)

/-- The kind that a value names. A number that is too long to be shown names none. -/
def readKind (item : Value) : Except Fault Kind :=
  match item.text? interpreter.tooDeepToShow with
  | .error .tooManyDigits => .error .kindTooLong
  | .error .nestedTooDeep => .error (.unshown .nestedTooDeep)
  | .ok text =>
    match Kind.ofTag? text with
    | none => .error (.unknownKind text)
    | some kind => .ok kind

/-- The kinds that a list of settings names. -/
def readKindList : List Value → Except Fault (List Kind)
  | [] => .ok []
  | item :: rest => do
    let kind ← readKind interpreter item
    let others ← readKindList rest
    return kind :: others

/-- The kinds to report; nothing means all. They are kept in order and without repetition. -/
def readKinds : Option Value → Except Fault (Option (List Kind))
  | none | some .null => .ok none
  | some (.list items) =>
    (readKindList interpreter items).map fun named => some (Kind.all.filter named.contains)
  | some _ => .error .kindsNotList

/-- The severity with a name, whatever its case and the blanks around it. -/
def readSeverity? (text : String) : Option Severity :=
  let word := Text.toSmall (String.ofList (Text.trim text.toList))
  if word == "error" then some .error
  else if word == "warning" then some .warning
  else none

/-- A text that is not empty. -/
def nonEmptyText? : Option Value → Option String
  | some (.string text) => if text.isEmpty then none else some text
  | _ => none

/-- What a custom rule says where it matches. -/
def readMessage (name : String) : Option Value → Except Fault String
  | none => .ok ("Custom rule '" ++ name ++ "' matched")
  | some message => (message.text? interpreter.tooDeepToShow).mapError .unshown

/-- How severe a match of a custom rule is. -/
def readSeverity (name : String) (entry : Option Value) : Except Fault Severity := do
  let value := entry.getD (.string "warning")
  let text ← (value.text? interpreter.tooDeepToShow).mapError .unshown
  match readSeverity? text with
  | none => .error (.unknownSeverity name value.quoted)
  | some severity => .ok severity

/-- A custom rule at a position of the list. -/
def readCustomRule (position : Nat) (value : Value) : Except Fault CustomRule := do
  let .table entries := value | .error (.ruleNotTable position)
  let some name := nonEmptyText? (entries.lookup "name") | .error (.ruleWithoutName position)
  let some pattern := nonEmptyText? (entries.lookup "pattern") | .error (.ruleWithoutPattern name)
  let message ← readMessage interpreter name (entries.lookup "message")
  let severity ← readSeverity interpreter name (entries.lookup "severity")
  return {
    name
    pattern
    message
    severity
    enabled := ((entries.lookup "enabled").map Value.isTruthy).getD true }

def readCustomRulesFrom (position : Nat) : List Value → Except Fault (List CustomRule)
  | [] => .ok []
  | value :: rest => do
    let rule ← readCustomRule interpreter position value
    let others ← readCustomRulesFrom (position + 1) rest
    return rule :: others

/-- The custom rules; there are none if the settings do not mention any. -/
def readCustomRules : Option Value → Except Fault (List CustomRule)
  | none => .ok []
  | some (.list items) => readCustomRulesFrom interpreter 0 items
  | some _ => .error .rulesNotList

end

/-! ### Settings with a default -/

/-- A value together with the warnings that reading it gave. -/
abbrev Noted (α : Type) := List Warning × α

/-- Reads on after something that was read. -/
def Noted.andThen {ε α β : Type} (first : Noted (Except ε α)) (next : α → Noted (Except ε β)) :
    Noted (Except ε β) :=
  match first.2 with
  | .error fault => (first.1, .error fault)
  | .ok value => (first.1 ++ (next value).1, (next value).2)

/-- A whole number above zero. -/
def readPositive (table : Table) (key : String) (default : Nat) : Noted Nat :=
  match table.lookup key with
  | none => ([], default)
  | some (.integer (.ofNat (number + 1))) => ([], number + 1)
  | some _ => ([.notPositive key default], default)

def readBoolean (table : Table) (key : String) (default : Bool) : Noted Bool :=
  match table.lookup key with
  | none => ([], default)
  | some (.boolean value) => ([], value)
  | some _ => ([.notBoolean key default], default)

/-- The text of an entry of a list; entries that are no texts, numbers or truth values have
none. -/
def entryText? : Value → Except Value.TextFault (Option String)
  | .string text => .ok (some text)
  | .integer number =>
    if Number.isTooLong number then .error .tooManyDigits else .ok (some (toString number))
  | .boolean value => .ok (some (Value.booleanText value))
  | _ => .ok none

/-- The texts of a list. -/
def entryTexts : List Value → Except Value.TextFault (List String)
  | [] => .ok []
  | item :: rest => do
    let text ← entryText? item
    let others ← entryTexts rest
    return text.toList ++ others

def readTexts (table : Table) (key : String) (default : List String) :
    Noted (Except Value.TextFault (List String)) :=
  match table.lookup key with
  | none => ([], .ok default)
  | some (.list items) => ([], entryTexts items)
  | some _ => ([.notList key], .ok default)

/-! ### The whole table -/

/-- The keys that have a meaning. -/
def knownKeys : List String :=
  ["max_file_lines", "max_function_lines", "max_line_length", "ban_underscore_bandaid",
    "require_documentation", "allow_unwrap", "allow_expect", "enabled_kinds", "allowed_editions",
    "required_dependencies", "exclude_dirs", "max_workers", "custom_rules"]

/-- A warning for each key without a meaning. -/
def unknownKeys (table : Table) : List Warning :=
  (table.filter fun entry => !knownKeys.contains entry.1).map fun entry => .unknownKey entry.1

/-- The part of the settings that can be refused. -/
def readStrict (interpreter : Interpreter) (table : Table) :
    Except Fault (Option (List Kind) × List CustomRule × RuleSet) := do
  let kinds ← readKinds interpreter (table.lookup "enabled_kinds")
  let customRules ← readCustomRules interpreter (table.lookup "custom_rules")
  let rules ← (RuleSet.make customRules kinds interpreter.compile).mapError .rule
  return (kinds, customRules, rules)

/-- The settings that are lists of texts. -/
structure TextLists where
  allowedEditions : List String
  requiredDependencies : List String
  excludedDirectories : List String

def readTextLists (table : Table) : Noted (Except Value.TextFault TextLists) :=
  (readTexts table "allowed_editions" ["2021", "2024"]).andThen fun allowedEditions =>
    (readTexts table "required_dependencies" []).andThen fun requiredDependencies =>
      (readTexts table "exclude_dirs" ["target"]).andThen fun excludedDirectories =>
        ([], .ok ⟨allowedEditions, requiredDependencies, excludedDirectories⟩)

/-- Reads the settings with their defaults, in the order in which they warn. -/
def readTyped (table : Table) (kinds : Option (List Kind)) (customRules : List CustomRule)
    (rules : RuleSet) : Noted (Except Value.TextFault Settings) :=
  let maxFileLines := readPositive table "max_file_lines" 300
  let maxFunctionLines := readPositive table "max_function_lines" 50
  let maxLineLength := readPositive table "max_line_length" 100
  let maxWorkers := readPositive table "max_workers" 8
  let banUnderscoreBandaid := readBoolean table "ban_underscore_bandaid" true
  let requireDocumentation := readBoolean table "require_documentation" true
  let allowUnwrap := readBoolean table "allow_unwrap" false
  let allowExpect := readBoolean table "allow_expect" false
  let textLists := readTextLists table
  (maxFileLines.1 ++ maxFunctionLines.1 ++ maxLineLength.1 ++ maxWorkers.1 ++
      banUnderscoreBandaid.1 ++ requireDocumentation.1 ++ allowUnwrap.1 ++ allowExpect.1 ++
      textLists.1,
    textLists.2.map fun texts =>
      { source := table
        kinds
        customRules
        rules
        maxFileLines := maxFileLines.2
        maxFunctionLines := maxFunctionLines.2
        maxLineLength := maxLineLength.2
        maxWorkers := maxWorkers.2
        banUnderscoreBandaid := banUnderscoreBandaid.2
        requireDocumentation := requireDocumentation.2
        allowUnwrap := allowUnwrap.2
        allowExpect := allowExpect.2
        allowedEditions := texts.allowedEditions
        requiredDependencies := texts.requiredDependencies
        excludedDirectories := texts.excludedDirectories })

/-- Reads a table of settings. Unknown keys are warned about even if the settings are refused. -/
def read (table : Table) (interpreter : Interpreter := .plain) : Noted (Except Fault Settings) :=
  let unknown := unknownKeys table
  match readStrict interpreter table with
  | .error fault => (unknown, .error fault)
  | .ok (kinds, customRules, rules) =>
    let typed := readTyped table kinds customRules rules
    (unknown ++ typed.1, typed.2.mapError .unshown)

/-- Reads the settings again with some of them replaced; a replacement by nothing is none. -/
def override (settings : Settings) (replacements : Table) (interpreter : Interpreter := .plain) :
    Noted (Except Fault Settings) :=
  let table := replacements.foldl
    (fun table entry =>
      match entry.2 with
      | .null => table
      | value => table.insert entry.1 value)
    settings.source
  read table interpreter

/-- Whether violations of a kind are reported. -/
def isEnabled (settings : Settings) (kind : Kind) : Bool :=
  settings.rules.isEnabled kind

/-- The same settings, reporting only some kinds. -/
def restrictedTo (settings : Settings) (kinds : List Kind) : Settings :=
  { settings with
    kinds := some (Kind.all.filter kinds.contains)
    rules := { settings.rules with kinds := Kind.all.filter kinds.contains } }

end Settings

end CrateAudit

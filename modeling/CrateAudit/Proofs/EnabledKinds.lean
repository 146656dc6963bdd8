/-
This file says that the kinds to report only filter what a scan finds. Each check is made
for one kind and looks at nothing that another check has found, and findings that are left
out leave the order of the others as it is. So a scan for some kinds reports what a scan
for every kind reports of them.
-/

import CrateAudit.Proofs.ReportedCalls
import CrateAudit.Proofs.ReportOrder
import Mathlib.Data.List.Basic

namespace CrateAudit

theorem Kind.contains_all (kind : Kind) : all.contains kind = true := by
  cases kind <;> rfl

namespace Settings

theorem isEnabled_restrictedTo (settings : Settings) (kinds : List Kind) (kind : Kind) :
    (settings.restrictedTo kinds).isEnabled kind = kinds.contains kind := by
  have known := Kind.mem_all kind
  rw [Bool.eq_iff_iff]
  simp [isEnabled, restrictedTo, RuleSet.isEnabled, known]

/-! ### Settings that name the kinds -/

/-- The setting that names the kinds to report. -/
def kindsEntry (kinds : List Kind) : String × Value :=
  ("enabled_kinds", .list (kinds.map fun kind => .string kind.tag))

theorem readKindList_tags (interpreter : Interpreter) (kinds : List Kind) :
    readKindList interpreter (kinds.map fun kind => .string kind.tag) = .ok kinds := by
  induction kinds with
  | nil => rfl
  | cons kind rest inductionHypothesis =>
    have named : readKind interpreter (.string kind.tag) = .ok kind := by
      rw [readKind, Value.text?_string]
      simp only [Kind.ofTag?_tag]
    rw [List.map_cons, readKindList, named, inductionHypothesis]
    rfl

/-- The settings with a default do not depend on the kinds to report. -/
theorem readTyped_insert_kinds (table : Table) (value : Value) (kinds kinds' : Option (List Kind))
    (customRules : List CustomRule) (rules rules' : RuleSet) :
    (readTyped (table.insert "enabled_kinds" value) kinds customRules rules).2 =
      (readTyped table kinds' customRules rules').2.map fun settings =>
        { settings with source := table.insert "enabled_kinds" value, kinds, rules } := by
  have other (key : String) (apart : key ≠ "enabled_kinds") :
      List.lookup key (table.insert "enabled_kinds" value) = table.lookup key :=
    Table.lookup_insert_other apart value table
  have textLists : readTextLists (table.insert "enabled_kinds" value) = readTextLists table := by
    simp (disch := decide) only [readTextLists, readTexts, other]
  simp (disch := decide) only [readTyped, readPositive, readBoolean, other, textLists]
  cases (readTextLists table).2 <;> rfl

/-- Settings that are read again with other kinds report these kinds and are otherwise the same. -/
theorem override_kindsEntry {table : Table} {settings : Settings}
    (readable : (read table).2 = .ok settings) (kinds : List Kind) :
    (settings.override [kindsEntry kinds]).2 = .ok
      { settings.restrictedTo kinds with
        source := table.insert "enabled_kinds" (kindsEntry kinds).2 } := by
  have again : settings.override [kindsEntry kinds] =
      read (table.insert "enabled_kinds" (kindsEntry kinds).2) := by
    rw [override, source_of_read readable]
    rfl
  obtain ⟨kinds', customRules, custom, _, described, compiled, typed⟩ := read_eq_ok.mp readable
  rw [again, read_eq_ok, Table.lookup_insert_self, Table.lookup_insert_other (by decide)]
  refine ⟨some (Kind.all.filter kinds.contains), customRules, custom, ?_, described, compiled, ?_⟩
  · rw [kindsEntry, readKinds, readKindList_tags]
    rfl
  · rw [readTyped_insert_kinds table _ _ kinds' customRules _ ⟨custom, kinds'.getD Kind.all⟩,
      typed]
    exact congrArg Except.ok (by
      simp only [restrictedTo, (eq_of_readTyped typed).2.2.2, Option.getD_some])

end Settings

namespace Scan

/-! ### Choices among findings -/

/-- Findings that depend on the kinds to report by a choice among those that are reported with
every kind. -/
def OnlyFilters (found : List Kind → List Violation) : Prop :=
  ∀ kinds, found kinds = (found Kind.all).filter fun violation => kinds.contains violation.kind

namespace OnlyFilters

theorem nil : OnlyFilters fun _ => [] := fun _ => rfl

theorem append {first second : List Kind → List Violation} (filters : OnlyFilters first)
    (filters' : OnlyFilters second) : OnlyFilters fun kinds => first kinds ++ second kinds :=
  fun kinds => by simp only [List.filter_append, ← filters kinds, ← filters' kinds]

theorem ite {condition : Prop} [Decidable condition]
    {first second : List Kind → List Violation} (filters : OnlyFilters first)
    (filters' : OnlyFilters second) :
    OnlyFilters fun kinds => if condition then first kinds else second kinds := by
  intro kinds
  dsimp only
  split
  · exact filters kinds
  · exact filters' kinds

theorem sortInFile {found : List Kind → List Violation} (filters : OnlyFilters found) :
    OnlyFilters fun kinds => Violation.sortInFile (found kinds) := by
  intro kinds
  dsimp only
  rw [Violation.filter_sortInFile, ← filters kinds]

/-- A check for one kind filters if it is made where the kind is asked for and reports nothing
else. -/
theorem of_kind (kind : Kind) {found : List Kind → List Violation}
    (switched : ∀ kinds, found kinds = if kinds.contains kind then found Kind.all else [])
    (own : ∀ violation ∈ found Kind.all, violation.kind = kind) : OnlyFilters found := by
  intro kinds
  rw [switched]
  cases asked : kinds.contains kind with
  | false =>
    rw [if_neg Bool.false_ne_true, eq_comm, List.filter_eq_nil_iff]
    exact fun violation member => by rw [own violation member, asked]; exact Bool.false_ne_true
  | true =>
    rw [if_pos rfl, eq_comm, List.filter_eq_self]
    exact fun violation member => by rw [own violation member, asked]

end OnlyFilters

/-! ### Checks -/

variable (settings : Settings) (source : Source)

theorem onlyFilters_checkFileSize :
    OnlyFilters fun kinds => checkFileSize (settings.restrictedTo kinds) source := by
  refine .of_kind .fileTooLarge (fun kinds => ?_) fun violation found =>
    (of_mem_checkFileSize found).2
  simp only [checkFileSize, Settings.isEnabled_restrictedTo, Kind.contains_all]
  cases kinds.contains .fileTooLarge <;> rfl

theorem onlyFilters_checkUnderscores {found : List Violation}
    (own : ∀ violation ∈ found, violation.kind = .underscoreBandaid) :
    OnlyFilters fun kinds =>
      if checksUnderscores (settings.restrictedTo kinds) then found else [] := by
  refine .of_kind .underscoreBandaid (fun kinds => ?_) fun violation member => ?_
  · simp only [checksUnderscores, Settings.isEnabled_restrictedTo, Kind.contains_all]
    cases kinds.contains .underscoreBandaid <;> rfl
  · split at member
    · exact own violation member
    · cases member

theorem onlyFilters_checkFunction (start : Nat) :
    OnlyFilters fun kinds => checkFunction (settings.restrictedTo kinds) source start := by
  cases located : Rust.functionAt? source.lines start with
  | none =>
    simp only [checkFunction, located]
    exact .nil
  | some function =>
    simp only [checkFunction, located]
    refine .append (.of_kind .functionTooLarge (fun kinds => ?_) fun violation member => ?_)
      (onlyFilters_checkUnderscores settings fun violation found =>
        (of_mem_checkUnderscoreParameter found).2)
    · simp only [Settings.isEnabled_restrictedTo, Kind.contains_all]
      cases kinds.contains .functionTooLarge <;> rfl
    · split at member
      · rw [List.mem_singleton.mp member]
        rfl
      · cases member

theorem onlyFilters_checkCall (rule : Rule) (index : Nat) (line : Line) :
    OnlyFilters fun kinds => checkCall (settings.restrictedTo kinds) rule source index line := by
  refine .of_kind rule.kind (fun kinds => ?_) fun violation found => ?_
  · simp only [checkCall, Settings.isEnabled_restrictedTo, Kind.contains_all]
    cases kinds.contains rule.kind <;> rfl
  · rw [eq_of_mem_checkCall found]
    rfl

theorem onlyFilters_checkDocs (index : Nat) (line : Line) :
    OnlyFilters fun kinds => checkDocs (settings.restrictedTo kinds) source index line := by
  refine .of_kind .missingDocs (fun kinds => ?_) fun violation found => (of_mem_checkDocs found).2
  simp only [checkDocs, Settings.isEnabled_restrictedTo, Kind.contains_all]
  cases kinds.contains .missingDocs <;> rfl

theorem onlyFilters_checkLineLength (index : Nat) (line : Line) :
    OnlyFilters fun kinds => checkLineLength (settings.restrictedTo kinds) source index line := by
  refine .of_kind .lineTooLong (fun kinds => ?_) fun violation found =>
    (of_mem_checkLineLength found).2
  simp only [checkLineLength, Settings.isEnabled_restrictedTo, Kind.contains_all]
  cases kinds.contains .lineTooLong <;> rfl

theorem onlyFilters_checkCustomRules (index : Nat) (line : Line) :
    OnlyFilters fun kinds => checkCustomRules (settings.restrictedTo kinds) source index line := by
  have custom (kinds : List Kind) :
      (settings.restrictedTo kinds).rules.custom = settings.rules.custom := rfl
  simp only [checkCustomRules, custom, Settings.isEnabled_restrictedTo]
  induction settings.rules.custom with
  | nil => exact .nil
  | cons rule rest inductionHypothesis =>
    have first : OnlyFilters fun kinds =>
        if kinds.contains rule.kind then checkCustomRule source index line rule else [] := by
      refine .of_kind rule.kind (fun kinds => by rw [Kind.contains_all, if_pos rfl]) ?_
      rw [Kind.contains_all, if_pos rfl]
      exact fun violation found => (of_mem_checkCustomRule found).2
    have parts (kinds : List Kind) :
        ((rule :: rest).filter fun rule => kinds.contains rule.kind).flatMap
            (checkCustomRule source index line) =
          (if kinds.contains rule.kind then checkCustomRule source index line rule else []) ++
            (rest.filter fun rule => kinds.contains rule.kind).flatMap
              (checkCustomRule source index line) := by
      rw [List.filter_cons]
      split <;> rfl
    simp only [parts]
    exact .append first inductionHypothesis

theorem onlyFilters_checkLine (exempt : Exemptions) (inTest : Bool) (index : Nat) (line : Line) :
    OnlyFilters fun kinds =>
      checkLine (settings.restrictedTo kinds) exempt source inTest index line := by
  have documentation (kinds : List Kind) :
      (settings.restrictedTo kinds).requireDocumentation = settings.requireDocumentation := rfl
  simp only [checkLine, documentation]
  refine .append (.append (.append (.append ?_ ?_) (.ite .nil (.append (.append ?_ ?_) ?_))) ?_) ?_
  · exact .ite (onlyFilters_checkFunction settings source index) .nil
  · refine onlyFilters_checkUnderscores settings fun violation found => ?_
    rw [eq_of_mem_checkLiteral found]
    rfl
  · exact .ite .nil (onlyFilters_checkCall settings source _ index line)
  · exact .ite .nil (onlyFilters_checkCall settings source _ index line)
  · exact .ite (onlyFilters_checkDocs settings source index line) .nil
  · exact onlyFilters_checkLineLength settings source index line
  · exact onlyFilters_checkCustomRules settings source index line

theorem onlyFilters_checkLinesFrom (exempt : Exemptions) (scope : TestScope) (index : Nat)
    (lines : List Line) :
    OnlyFilters fun kinds =>
      checkLinesFrom (settings.restrictedTo kinds) exempt source scope index lines := by
  induction lines generalizing scope index with
  | nil => exact .nil
  | cons line rest inductionHypothesis =>
    simp only [checkLinesFrom]
    exact .append (onlyFilters_checkLine settings source exempt _ index line)
      (inductionHypothesis _ _)

theorem onlyFilters_rustFile (testPath : Option String) :
    OnlyFilters fun kinds => rustFile (settings.restrictedTo kinds) source testPath := by
  simp only [rustFile_eq]
  exact .sortInFile <| .append (onlyFilters_checkFileSize settings source)
    (onlyFilters_checkLinesFrom settings source (exemptionsIn settings source testPath) .start 0
      source.lines)

theorem onlyFilters_manifest :
    OnlyFilters fun kinds => manifest (settings.restrictedTo kinds) source := by
  have edition (kinds : List Kind) : checkEdition (settings.restrictedTo kinds) source =
      checkEdition settings source := rfl
  have dependencies (kinds : List Kind) : checkDependencies (settings.restrictedTo kinds) source =
      checkDependencies settings source := rfl
  simp only [manifest, edition, dependencies, Settings.isEnabled_restrictedTo]
  refine .sortInFile <| .append (.of_kind .wrongEdition (fun kinds => ?_) ?_)
    (.of_kind .missingDependencies (fun kinds => ?_) ?_)
  · rw [Kind.contains_all, if_pos rfl]
  · rw [Kind.contains_all, if_pos rfl]
    exact fun violation found => (of_mem_checkEdition found).2
  · rw [Kind.contains_all, if_pos rfl]
  · rw [Kind.contains_all, if_pos rfl]
    exact fun violation found => (of_mem_checkDependencies found).2

/-! ### Scans for some kinds -/

/-- A scan for some kinds reports what a scan for every kind reports of them, in the same order.
Settings that name no kinds scan for every kind. -/
theorem scan_of_kindsEntry {table : Table} {settings : Settings}
    (readable : (Settings.read table).2 = .ok settings) (kinds : List Kind) :
    ∃ chosen every,
      (settings.override [Settings.kindsEntry kinds]).2 = .ok chosen ∧
      (settings.override [Settings.kindsEntry Kind.all]).2 = .ok every ∧
      (settings.kinds = none →
        rustFile settings = rustFile every ∧ manifest settings = manifest every) ∧
      ∀ source,
        (∀ testPath, rustFile chosen source testPath =
          (rustFile every source testPath).filter
            fun violation => kinds.contains violation.kind) ∧
        manifest chosen source =
          (manifest every source).filter fun violation => kinds.contains violation.kind := by
  have scanned (kinds : List Kind) (table : Table) :
      rustFile { settings.restrictedTo kinds with source := table } =
        rustFile (settings.restrictedTo kinds) := rustFile_congr rfl rfl rfl
  refine ⟨_, _, Settings.override_kindsEntry readable kinds,
    Settings.override_kindsEntry readable Kind.all, fun unnamed => ?_,
    fun source => ⟨fun testPath => ?_, ?_⟩⟩
  · rw [scanned]
    obtain ⟨_, _, custom, _, _, _, typed⟩ := Settings.read_eq_ok.mp readable
    obtain ⟨_, rfl, _, rules⟩ := Settings.eq_of_readTyped typed
    rw [unnamed, Option.getD_none] at rules
    have every : settings.restrictedTo Kind.all =
        { settings with kinds := some (Kind.all.filter Kind.all.contains) } := by
      rw [Settings.restrictedTo, rules]
      rfl
    rw [every]
    exact ⟨rustFile_congr rfl rfl rfl, rfl⟩
  · rw [scanned kinds, scanned Kind.all]
    exact onlyFilters_rustFile settings source testPath kinds
  · exact onlyFilters_manifest settings source kinds

/-- Settings with a rule of their own that ask for other kinds only. -/
def ruledTable : Table :=
  [("custom_rules", .list [.table [("name", .string "todo"), ("pattern", .string "todo!")]]),
    ("enabled_kinds", .list [.string "MissingDocs"])]

def ruledSettings : Settings :=
  let rule : CustomRule := ⟨"todo", "todo!", "Custom rule 'todo' matched", .warning, true⟩
  { Settings.standard with
    source := ruledTable
    kinds := some [.missingDocs]
    customRules := [rule]
    rules := ⟨[Rule.ofCustom rule (.inOrder (Regex.parts "todo!"))], [.missingDocs]⟩ }

theorem read_ruledTable : (Settings.read ruledTable).2 = .ok ruledSettings :=
  Settings.read_eq_ok.mpr ⟨_, _, _, by rfl, by rfl, by decide, rfl⟩

/-- Asked for custom rules instead, they report what the rule finds. -/
theorem scan_of_kindsEntry_ruledTable :
    (Settings.read ruledTable).2 = .ok ruledSettings ∧
    ∃ chosen every,
      (ruledSettings.override [Settings.kindsEntry [.customPattern]]).2 = .ok chosen ∧
      (ruledSettings.override [Settings.kindsEntry Kind.all]).2 = .ok every ∧
      (ruledSettings.kinds = none →
        rustFile ruledSettings = rustFile every ∧ manifest ruledSettings = manifest every) ∧
      ∀ source,
        (∀ testPath, rustFile chosen source testPath =
          (rustFile every source testPath).filter
            fun violation => [Kind.customPattern].contains violation.kind) ∧
        manifest chosen source =
          (manifest every source).filter
            fun violation => [Kind.customPattern].contains violation.kind :=
  ⟨read_ruledTable, scan_of_kindsEntry read_ruledTable [.customPattern]⟩

end Scan

end CrateAudit

/-
This file says what the entries of a table about kinds and custom rules may say, and that
they are read accordingly. A value that names no kind or describes no rule is a reason to
refuse the table. The reading breaks off only at a value that has to be shown and has no
text, and only if it is fit for everything before that value.
-/

import CrateAudit.Proofs.FallibleSteps
import CrateAudit.Proofs.ReadSettings
import CrateAudit.Proofs.ValueTexts
import Mathlib.Data.List.Forall2

namespace CrateAudit

/-- The name of a severity in settings. -/
def Severity.word : Severity → String
  | .error => "error"
  | .warning => "warning"

namespace Settings

/-! ### What a table may say -/

/-- The value is the tag of a kind, in either spelling. -/
def Names (value : Value) (kind : Kind) : Prop :=
  value = .string kind.tag ∨ value = .string kind.constantName

/-- The entry describes the kinds to report. Without one, or with null, these are all kinds. -/
def DescribesKinds : Option Value → Option (List Kind) → Prop
  | none, kinds | some .null, kinds => kinds = none
  | some (.list items), kinds =>
    ∃ named, List.Forall₂ Names items named ∧ kinds = some (Kind.all.filter named.contains)
  | some _, _ => False

/-- The entries of a table describe a custom rule. -/
structure DescribesRule (entries : Table) (rule : CustomRule) : Prop where
  name : entries.lookup "name" = some (.string rule.name)
  named : rule.name ≠ ""
  pattern : entries.lookup "pattern" = some (.string rule.pattern)
  patterned : rule.pattern ≠ ""
  severity : Text.toSmall (String.ofList (Text.trim
    ((entries.lookup "severity").getD (.string "warning")).text.toList)) = rule.severity.word
  message : rule.message = ((entries.lookup "message").map Value.text).getD
    ("Custom rule '" ++ rule.name ++ "' matched")
  enabled : rule.enabled = ((entries.lookup "enabled").map Value.isTruthy).getD true

/-- The value is a table that describes a custom rule. -/
def IsRule (value : Value) (rule : CustomRule) : Prop :=
  ∃ entries, value = .table entries ∧ DescribesRule entries rule

/-- The entry describes the custom rules. Without one there are none, but null is no description. -/
def DescribesRules : Option Value → List CustomRule → Prop
  | none, rules => rules = []
  | some (.list items), rules => List.Forall₂ IsRule items rules
  | some _, _ => False

/-- If the rule is on, its pattern compiles and does not match the empty line. -/
def HasUsablePattern (interpreter : Interpreter) (rule : CustomRule) : Prop :=
  rule.enabled = true →
    ∃ regex, interpreter.compile rule.pattern = .ok regex ∧ regex.startsLine [] = false

/-- An audit can use the rules: they have different names, and usable patterns where they are on. -/
structure AreUsable (interpreter : Interpreter) (rules : List CustomRule) : Prop where
  distinct : (rules.map (·.name)).Nodup
  searchable : ∀ rule ∈ rules, HasUsablePattern interpreter rule

/-! ### Values without a text -/

variable {interpreter : Interpreter}

/-- The message and the severity, where they are written, have a text. -/
def HasTexts (interpreter : Interpreter) (entries : Table) : Prop :=
  ∀ key ∈ ["message", "severity"], ∀ value, entries.lookup key = some value →
    value.textFault? interpreter.tooDeepToShow = none

/-- The value is a table that describes a custom rule, and can be shown. -/
def IsShownRule (interpreter : Interpreter) (value : Value) (rule : CustomRule) : Prop :=
  ∃ entries, value = .table entries ∧ DescribesRule entries rule ∧ HasTexts interpreter entries

/-- The value is a table with a name and a pattern whose message or severity has no text. -/
def IsUnshownRule (interpreter : Interpreter) (value : Value) : Prop :=
  ∃ entries name pattern, value = .table entries ∧
    entries.lookup "name" = some (.string name) ∧ name ≠ "" ∧
    entries.lookup "pattern" = some (.string pattern) ∧ pattern ≠ "" ∧
    ¬ HasTexts interpreter entries

/-- The reading ends at a value without a text. -/
def IsUnshown {Read : Type} (outcome : Except Fault Read) : Prop :=
  ∃ cause, outcome = .error (.unshown cause)

theorem not_isUnshown_ok {Read : Type} (read : Read) :
    ¬ IsUnshown (.ok read : Except Fault Read) := by
  rintro ⟨_, ⟨⟩⟩

theorem isUnshown_bind {Read Read' : Type} {first : Except Fault Read}
    {next : Read → Except Fault Read'} :
    IsUnshown (first >>= next) ↔
      IsUnshown first ∨ ∃ read, first = .ok read ∧ IsUnshown (next read) := by
  cases first with
  | error fault =>
    constructor
    · rintro ⟨cause, ⟨⟩⟩
      exact .inl ⟨cause, rfl⟩
    · rintro (⟨cause, ⟨⟩⟩ | ⟨_, ⟨⟩, _⟩)
      exact ⟨cause, rfl⟩
  | ok read =>
    constructor
    · exact fun broken => .inr ⟨read, rfl, broken⟩
    · rintro (⟨_, ⟨⟩⟩ | ⟨_, ⟨⟩, broken⟩)
      exact broken

/-- A list is read up to the first item that breaks the reading off. -/
theorem isUnshown_cons {Read : Type} {first : Except Fault Read}
    {others : Except Fault (List Read)} :
    IsUnshown (do return (← first) :: (← others)) ↔
      IsUnshown first ∨ (∃ read, first = .ok read) ∧ IsUnshown others := by
  simp only [isUnshown_bind]
  refine or_congr_right ⟨?_, ?_⟩
  · rintro ⟨read, made, broken | ⟨_, _, broken⟩⟩
    · exact ⟨⟨read, made⟩, broken⟩
    · exact absurd broken (not_isUnshown_ok _)
  · rintro ⟨⟨read, made⟩, broken⟩
    exact ⟨read, made, .inl broken⟩

theorem isUnshown_map {Read Read' : Type} {first : Except Fault Read} {change : Read → Read'} :
    IsUnshown (first.map change) ↔ IsUnshown first := by
  cases first with
  | error fault =>
    constructor
    · rintro ⟨cause, ⟨⟩⟩
      exact ⟨cause, rfl⟩
    · rintro ⟨cause, ⟨⟩⟩
      exact ⟨cause, rfl⟩
  | ok read => exact iff_of_false (not_isUnshown_ok _) (not_isUnshown_ok _)

/-! ### Kinds -/

/-- A text is the only value that names a kind, and it can be shown. -/
theorem readKind_eq_ok {item : Value} {kind : Kind} :
    readKind interpreter item = .ok kind ↔ Names item kind := by
  rw [readKind]
  constructor
  · intro made
    split at made
    · cases made
    · cases made
    · rename_i text shown
      split at made
      · cases made
      · rename_i kind' found
        cases made
        rw [← (Value.text?_eq_ok.mp shown).2] at found
        exact Value.ofTag?_text_eq_some.mp found
  · rintro (rfl | rfl)
    · simp only [Value.text?_string, Kind.ofTag?_tag]
    · simp only [Value.text?_string, Kind.ofTag?_constantName]

/-- Only nesting breaks the search for a kind off: a number that is too long names none. -/
theorem isUnshown_readKind {item : Value} :
    IsUnshown (readKind interpreter item) ↔
      item.textFault? interpreter.tooDeepToShow = some .nestedTooDeep := by
  rw [readKind, Value.text?]
  cases item.textFault? interpreter.tooDeepToShow with
  | none =>
    refine iff_of_false ?_ (by simp)
    rintro ⟨_, same⟩
    dsimp only at same
    split at same <;> cases same
  | some fault =>
    cases fault with
    | tooManyDigits =>
      refine iff_of_false ?_ (by simp)
      rintro ⟨_, same⟩
      cases same
    | nestedTooDeep => exact iff_of_true ⟨_, rfl⟩ rfl

theorem readKindList_eq_ok {items : List Value} {named : List Kind} :
    readKindList interpreter items = .ok named ↔ List.Forall₂ Names items named := by
  induction items generalizing named with
  | nil => rw [readKindList, List.forall₂_nil_left_iff, Except.ok.injEq, eq_comm]
  | cons item rest inductionHypothesis =>
    simp only [readKindList, bind_eq_ok_iff, readKind_eq_ok, inductionHypothesis,
      List.forall₂_cons_left_iff]
    constructor
    · rintro ⟨kind, names, others, later, ⟨⟩⟩
      exact ⟨kind, others, names, later, rfl⟩
    · rintro ⟨kind, others, names, later, rfl⟩
      exact ⟨kind, names, others, later, rfl⟩

theorem isUnshown_readKindList {items : List Value} :
    IsUnshown (readKindList interpreter items) ↔
      BreaksAtFirstMisfit (fun item => ∃ kind, Names item kind)
        (fun item => item.textFault? interpreter.tooDeepToShow = some .nestedTooDeep) items := by
  induction items with
  | nil => exact iff_of_false (not_isUnshown_ok []) not_breaksAtFirstMisfit_nil
  | cons item rest inductionHypothesis =>
    rw [readKindList, isUnshown_cons, isUnshown_readKind, inductionHypothesis,
      breaksAtFirstMisfit_cons]
    simp only [readKind_eq_ok]

theorem readKinds_eq_ok {entry : Option Value} {kinds : Option (List Kind)} :
    readKinds interpreter entry = .ok kinds ↔ DescribesKinds entry kinds := by
  have ok_none : (Except.ok none : Except Fault (Option (List Kind))) = .ok kinds ↔
      kinds = none := by
    rw [Except.ok.injEq, eq_comm]
  match entry with
  | none => exact ok_none
  | some .null => exact ok_none
  | some (.list items) =>
    simp only [readKinds, DescribesKinds, map_eq_ok_iff, readKindList_eq_ok]
    exact exists_congr fun named => and_congr_right' eq_comm
  | some (.boolean _) | some (.integer _) | some (.float _) | some (.string _)
  | some (.moment _) | some (.table _) =>
    exact iff_of_false (fun made => by cases made) id

theorem isUnshown_readKinds {entry : Option Value} :
    IsUnshown (readKinds interpreter entry) ↔ ∃ items, entry = some (.list items) ∧
      BreaksAtFirstMisfit (fun item => ∃ kind, Names item kind)
        (fun item => item.textFault? interpreter.tooDeepToShow = some .nestedTooDeep) items := by
  match entry with
  | some (.list items) =>
    rw [readKinds, isUnshown_map, isUnshown_readKindList]
    simp
  | none | some .null | some (.boolean _) | some (.integer _) | some (.float _)
  | some (.string _) | some (.moment _) | some (.table _) =>
    refine iff_of_false ?_ (by simp)
    rintro ⟨_, ⟨⟩⟩

/-! ### Custom rules -/

theorem readSeverity?_eq_some {text : String} {severity : Severity} :
    readSeverity? text = some severity ↔
      Text.toSmall (String.ofList (Text.trim text.toList)) = severity.word := by
  rw [readSeverity?]
  split
  · rename_i isError
    rw [beq_iff_eq.mp isError]
    cases severity <;> decide
  · rename_i noError
    split
    · rename_i isWarning
      rw [beq_iff_eq.mp isWarning]
      cases severity <;> decide
    · rename_i noWarning
      rw [beq_iff_eq] at noError noWarning
      refine iff_of_false (fun made => by cases made) ?_
      cases severity with
      | error => exact noError
      | warning => exact noWarning

theorem nonEmptyText?_eq_some {entry : Option Value} {text : String} :
    nonEmptyText? entry = some text ↔ entry = some (.string text) ∧ text ≠ "" := by
  constructor
  · intro made
    unfold nonEmptyText? at made
    split at made
    · rename_i text'
      split at made
      · cases made
      · rename_i filled
        cases made
        exact ⟨rfl, fun empty => filled (empty ▸ rfl)⟩
    · cases made
  · rintro ⟨rfl, filled⟩
    rw [nonEmptyText?, if_neg]
    rwa [String.isEmpty_iff]

theorem hasTexts_iff {entries : Table} :
    HasTexts interpreter entries ↔
      (∀ value, entries.lookup "message" = some value →
        value.textFault? interpreter.tooDeepToShow = none) ∧
      ((entries.lookup "severity").getD (.string "warning")).textFault?
        interpreter.tooDeepToShow = none := by
  simp only [HasTexts, List.forall_mem_cons, List.not_mem_nil, false_imp_iff, implies_true,
    and_true]
  refine and_congr_right' ?_
  cases entries.lookup "severity" with
  | none => exact iff_of_true (fun _ same => by cases same) (Value.textFault?_string _ _)
  | some value => simp

theorem readMessage_eq_ok {name message : String} {entry : Option Value} :
    readMessage interpreter name entry = .ok message ↔
      (∀ value, entry = some value → value.textFault? interpreter.tooDeepToShow = none) ∧
        message = (entry.map Value.text).getD ("Custom rule '" ++ name ++ "' matched") := by
  cases entry with
  | none => simp [readMessage, eq_comm]
  | some value =>
    rw [readMessage, mapError_eq_ok_iff, Value.text?_eq_ok]
    simp [eq_comm]

theorem isUnshown_mapError {Read : Type} {outcome : Except Value.TextFault Read} :
    IsUnshown (outcome.mapError .unshown) ↔ outcome.isOk = false := by
  cases outcome with
  | error cause => exact iff_of_true ⟨cause, rfl⟩ rfl
  | ok read => exact iff_of_false (not_isUnshown_ok read) (by simp [Except.isOk, Except.toBool])

theorem isUnshown_text? {value : Value} :
    IsUnshown ((value.text? interpreter.tooDeepToShow).mapError .unshown) ↔
      value.textFault? interpreter.tooDeepToShow ≠ none := by
  rw [isUnshown_mapError, Value.text?]
  cases value.textFault? interpreter.tooDeepToShow with
  | some fault => exact iff_of_true rfl (by simp)
  | none => simp [Except.isOk, Except.toBool]

theorem isUnshown_readMessage (name : String) {entry : Option Value} :
    IsUnshown (readMessage interpreter name entry) ↔
      ¬ ∀ value, entry = some value → value.textFault? interpreter.tooDeepToShow = none := by
  cases entry with
  | none => exact iff_of_false (not_isUnshown_ok _) (by simp)
  | some value =>
    rw [readMessage, isUnshown_text?]
    simp

theorem readSeverity_eq_ok {name : String} {entry : Option Value} {severity : Severity} :
    readSeverity interpreter name entry = .ok severity ↔
      (entry.getD (.string "warning")).textFault? interpreter.tooDeepToShow = none ∧
        Text.toSmall (String.ofList (Text.trim (entry.getD (.string "warning")).text.toList)) =
          severity.word := by
  simp only [readSeverity, bind_eq_ok_iff, mapError_eq_ok_iff, Value.text?_eq_ok,
    ← readSeverity?_eq_some]
  constructor
  · rintro ⟨_, ⟨shown, rfl⟩, made⟩
    split at made
    · cases made
    · rename_i found
      cases made
      exact ⟨shown, found⟩
  · rintro ⟨shown, found⟩
    exact ⟨_, ⟨shown, rfl⟩, by rw [found]⟩

theorem isUnshown_readSeverity (name : String) {entry : Option Value} :
    IsUnshown (readSeverity interpreter name entry) ↔
      (entry.getD (.string "warning")).textFault? interpreter.tooDeepToShow ≠ none := by
  simp only [readSeverity, isUnshown_bind, isUnshown_text?]
  refine or_iff_left ?_
  rintro ⟨_, _, cause, ends⟩
  split at ends <;> cases ends

/-- A table with a name and a pattern is a rule if its message and its severity are. -/
theorem readCustomRule_table {entries : Table} {name pattern : String} (position : Nat)
    (named : nonEmptyText? (entries.lookup "name") = some name)
    (patterned : nonEmptyText? (entries.lookup "pattern") = some pattern) :
    readCustomRule interpreter position (.table entries) =
      (readMessage interpreter name (entries.lookup "message")).bind fun message =>
        (readSeverity interpreter name (entries.lookup "severity")).map fun severity =>
          ⟨name, pattern, message, severity,
            ((entries.lookup "enabled").map Value.isTruthy).getD true⟩ := by
  simp only [readCustomRule, named, patterned]
  rfl

/-- A value that is no table with a name and a pattern is refused. -/
theorem readCustomRule_cases (position : Nat) (value : Value) :
    (∃ entries name pattern, value = .table entries ∧
        nonEmptyText? (entries.lookup "name") = some name ∧
        nonEmptyText? (entries.lookup "pattern") = some pattern) ∨
      ((∀ rule, readCustomRule interpreter position value ≠ .ok rule) ∧
        ¬ IsUnshown (readCustomRule interpreter position value)) := by
  have refused (fault : Fault) (other : ∀ cause, fault ≠ .unshown cause) :
      (∀ rule, (.error fault : Except Fault CustomRule) ≠ .ok rule) ∧
        ¬ IsUnshown (.error fault : Except Fault CustomRule) :=
    ⟨by simp, fun ⟨cause, same⟩ => other cause (Except.error.inj same)⟩
  cases value with
  | table entries =>
    cases named : nonEmptyText? (entries.lookup "name") with
    | none =>
      simp only [readCustomRule, named]
      exact .inr (refused _ (by simp))
    | some name =>
      cases patterned : nonEmptyText? (entries.lookup "pattern") with
      | none =>
        simp only [readCustomRule, named, patterned]
        exact .inr (refused _ (by simp))
      | some pattern => exact .inl ⟨entries, name, pattern, rfl, named, patterned⟩
  | _ => exact .inr (refused (.ruleNotTable position) (by simp))

theorem readCustomRule_eq_ok {position : Nat} {value : Value} {rule : CustomRule} :
    readCustomRule interpreter position value = .ok rule ↔ IsShownRule interpreter value rule := by
  constructor
  · intro made
    obtain ⟨entries, name, pattern, rfl, named, patterned⟩ :=
      (readCustomRule_cases position value).resolve_right fun other => other.1 rule made
    rw [readCustomRule_table position named patterned] at made
    obtain ⟨message, said, made⟩ := bind_eq_ok_iff.mp made
    obtain ⟨severity, severe, rfl⟩ := map_eq_ok_iff.mp made
    obtain ⟨shown, message'⟩ := readMessage_eq_ok.mp said
    obtain ⟨shown', severity'⟩ := readSeverity_eq_ok.mp severe
    obtain ⟨name', filled⟩ := nonEmptyText?_eq_some.mp named
    obtain ⟨pattern', filled'⟩ := nonEmptyText?_eq_some.mp patterned
    exact ⟨entries, rfl, ⟨name', filled, pattern', filled', severity', message', rfl⟩,
      hasTexts_iff.mpr ⟨shown, shown'⟩⟩
  · rintro ⟨entries, rfl, described, texts⟩
    obtain ⟨shown, shown'⟩ := hasTexts_iff.mp texts
    rw [readCustomRule_table position
      (nonEmptyText?_eq_some.mpr ⟨described.name, described.named⟩)
      (nonEmptyText?_eq_some.mpr ⟨described.pattern, described.patterned⟩),
      readMessage_eq_ok.mpr ⟨shown, described.message⟩,
      readSeverity_eq_ok.mpr ⟨shown', described.severity⟩]
    rw [← described.enabled]
    rfl

/-- A rule breaks the reading off if it has a name and a pattern but no text to show. -/
theorem isUnshown_readCustomRule {position : Nat} {value : Value} :
    IsUnshown (readCustomRule interpreter position value) ↔ IsUnshownRule interpreter value := by
  have table {entries : Table} {name pattern : String}
      (named : nonEmptyText? (entries.lookup "name") = some name)
      (patterned : nonEmptyText? (entries.lookup "pattern") = some pattern) :
      IsUnshown (readCustomRule interpreter position (.table entries)) ↔
        ¬ HasTexts interpreter entries := by
    rw [readCustomRule_table position named patterned, hasTexts_iff, not_and_or,
      ← isUnshown_readMessage name, ← ne_eq, ← isUnshown_readSeverity name]
    refine isUnshown_bind.trans ?_
    simp only [isUnshown_map]
    constructor
    · rintro (broken | ⟨_, _, broken⟩)
      · exact .inl broken
      · exact .inr broken
    · rintro (broken | broken)
      · exact .inl broken
      · by_cases shown : ∀ value, entries.lookup "message" = some value →
            value.textFault? interpreter.tooDeepToShow = none
        · exact .inr ⟨_, readMessage_eq_ok.mpr ⟨shown, rfl⟩, broken⟩
        · exact .inl ((isUnshown_readMessage name).mpr shown)
  constructor
  · intro broken
    obtain ⟨entries, name, pattern, rfl, named, patterned⟩ :=
      (readCustomRule_cases position value).resolve_right fun other => other.2 broken
    obtain ⟨name', filled⟩ := nonEmptyText?_eq_some.mp named
    obtain ⟨pattern', filled'⟩ := nonEmptyText?_eq_some.mp patterned
    exact ⟨entries, name, pattern, rfl, name', filled, pattern', filled',
      (table named patterned).mp broken⟩
  · rintro ⟨entries, name, pattern, rfl, name', filled, pattern', filled', silent⟩
    exact (table (nonEmptyText?_eq_some.mpr ⟨name', filled⟩)
      (nonEmptyText?_eq_some.mpr ⟨pattern', filled'⟩)).mpr silent

/-- The position only tells where a table that describes nothing stands. -/
theorem readCustomRulesFrom_eq_ok {position : Nat} {items : List Value} {rules : List CustomRule} :
    readCustomRulesFrom interpreter position items = .ok rules ↔
      List.Forall₂ (IsShownRule interpreter) items rules := by
  induction items generalizing position rules with
  | nil => rw [readCustomRulesFrom, List.forall₂_nil_left_iff, Except.ok.injEq, eq_comm]
  | cons item rest inductionHypothesis =>
    simp only [readCustomRulesFrom, bind_eq_ok_iff, readCustomRule_eq_ok, inductionHypothesis,
      List.forall₂_cons_left_iff]
    constructor
    · rintro ⟨rule, described, others, later, ⟨⟩⟩
      exact ⟨rule, others, described, later, rfl⟩
    · rintro ⟨rule, others, described, later, rfl⟩
      exact ⟨rule, described, others, later, rfl⟩

theorem isUnshown_readCustomRulesFrom {position : Nat} {items : List Value} :
    IsUnshown (readCustomRulesFrom interpreter position items) ↔
      BreaksAtFirstMisfit (fun value => ∃ rule, IsShownRule interpreter value rule)
        (IsUnshownRule interpreter) items := by
  induction items generalizing position with
  | nil => exact iff_of_false (not_isUnshown_ok []) not_breaksAtFirstMisfit_nil
  | cons item rest inductionHypothesis =>
    rw [readCustomRulesFrom, isUnshown_cons, isUnshown_readCustomRule, inductionHypothesis,
      breaksAtFirstMisfit_cons]
    simp only [readCustomRule_eq_ok]

/-- Rules that are described can be read, or the first without a text breaks the reading off. -/
theorem readCustomRulesFrom_of_isRule {position : Nat} {items : List Value}
    {rules : List CustomRule} (described : List.Forall₂ IsRule items rules) :
    readCustomRulesFrom interpreter position items = .ok rules ∨
      IsUnshown (readCustomRulesFrom interpreter position items) := by
  induction described generalizing position with
  | nil => exact .inl rfl
  | @cons item rule rest others here _ inductionHypothesis =>
    obtain ⟨entries, rfl, describes⟩ := here
    rw [readCustomRulesFrom, isUnshown_cons, isUnshown_readCustomRule]
    by_cases texts : HasTexts interpreter entries
    · have read : readCustomRule interpreter position (.table entries) = .ok rule :=
        readCustomRule_eq_ok.mpr ⟨entries, rfl, describes, texts⟩
      have later : readCustomRulesFrom interpreter (position + 1) rest = .ok others ∨
          IsUnshown (readCustomRulesFrom interpreter (position + 1) rest) := inductionHypothesis
      rcases later with made | broken
      · exact .inl (by rw [read, made]; rfl)
      · exact .inr (.inr ⟨⟨rule, read⟩, broken⟩)
    · exact .inr (.inl ⟨entries, rule.name, rule.pattern, rfl, describes.name, describes.named,
        describes.pattern, describes.patterned, texts⟩)

theorem readCustomRules_of_describesRules {entry : Option Value} {rules : List CustomRule}
    (described : DescribesRules entry rules) :
    readCustomRules interpreter entry = .ok rules ∨
      IsUnshown (readCustomRules interpreter entry) := by
  match entry with
  | none => exact .inl (by rw [readCustomRules, described])
  | some (.list items) => exact readCustomRulesFrom_of_isRule described
  | some .null | some (.boolean _) | some (.integer _) | some (.float _) | some (.string _)
  | some (.moment _) | some (.table _) => exact described.elim

theorem describesRules_of_readCustomRules {entry : Option Value} {rules : List CustomRule}
    (made : readCustomRules interpreter entry = .ok rules) : DescribesRules entry rules := by
  match entry with
  | none => exact (Except.ok.inj made).symm
  | some (.list items) =>
    exact (readCustomRulesFrom_eq_ok.mp made).imp fun _ _ ⟨entries, same, described, _⟩ =>
      ⟨entries, same, described⟩
  | some .null | some (.boolean _) | some (.integer _) | some (.float _) | some (.string _)
  | some (.moment _) | some (.table _) => cases made

theorem isUnshown_readCustomRules {entry : Option Value} :
    IsUnshown (readCustomRules interpreter entry) ↔ ∃ items, entry = some (.list items) ∧
      BreaksAtFirstMisfit (fun value => ∃ rule, IsShownRule interpreter value rule)
        (IsUnshownRule interpreter) items := by
  match entry with
  | some (.list items) =>
    rw [readCustomRules, isUnshown_readCustomRulesFrom]
    simp
  | none | some .null | some (.boolean _) | some (.integer _) | some (.float _)
  | some (.string _) | some (.moment _) | some (.table _) =>
    refine iff_of_false ?_ (by simp)
    rintro ⟨_, ⟨⟩⟩

theorem areUsable_cons {rule : CustomRule} {rest : List CustomRule} :
    AreUsable interpreter (rule :: rest) ↔
      (∀ other ∈ rest, other.name ≠ rule.name) ∧ HasUsablePattern interpreter rule ∧
        AreUsable interpreter rest := by
  constructor
  · rintro ⟨distinct, searchable⟩
    rw [List.map_cons, List.nodup_cons] at distinct
    rw [List.forall_mem_cons] at searchable
    exact ⟨fun other member same => distinct.1 (same ▸ List.mem_map_of_mem member),
      searchable.1, distinct.2, searchable.2⟩
  · rintro ⟨apart, usable, distinct, searchable⟩
    refine ⟨?_, List.forall_mem_cons.mpr ⟨usable, searchable⟩⟩
    rw [List.map_cons, List.nodup_cons]
    refine ⟨fun member => ?_, distinct⟩
    obtain ⟨other, member', same⟩ := List.mem_map.mp member
    exact apart other member' same

/-- The first rule is compiled if its name is free and its pattern can be used; the others if they
can be without its name. -/
theorem exists_compileAfter_cons_eq_ok {seen : List String} {rule : CustomRule}
    {rest : List CustomRule} :
    (∃ compiled, Rule.compileAfter interpreter.compile seen (rule :: rest) = .ok compiled) ↔
      rule.name ∉ seen ∧ HasUsablePattern interpreter rule ∧
        ∃ compiled, Rule.compileAfter interpreter.compile (rule.name :: seen) rest =
          .ok compiled := by
  rw [Rule.compileAfter, HasUsablePattern]
  split
  · rename_i taken
    refine iff_of_false ?_ fun accepted => accepted.1 (List.contains_iff_mem.mp taken)
    rintro ⟨_, ⟨⟩⟩
  · rename_i free
    rw [List.contains_iff_mem] at free
    split
    · rename_i off
      rw [Bool.not_eq_true'] at off
      have usable : ¬ rule.enabled = true := by rw [off]; exact Bool.false_ne_true
      exact ⟨fun made => ⟨free, fun on => absurd on usable, made⟩, fun accepted => accepted.2.2⟩
    · rename_i on
      have on' : rule.enabled = true := by simpa using on
      split
      · rename_i cause refused
        refine iff_of_false ?_ fun accepted => ?_
        · rintro ⟨_, ⟨⟩⟩
        · obtain ⟨regex, reads, _⟩ := accepted.2.1 on'
          cases refused.symm.trans reads
      · rename_i regex reads
        split
        · rename_i empty
          refine iff_of_false ?_ fun accepted => ?_
          · rintro ⟨_, ⟨⟩⟩
          · obtain ⟨regex', reads', filled⟩ := accepted.2.1 on'
            cases reads.symm.trans reads'
            exact Bool.false_ne_true (filled.symm.trans empty)
        · rename_i filled
          simp only [map_eq_ok_iff]
          constructor
          · rintro ⟨_, others, later, _⟩
            exact ⟨free, fun _ => ⟨regex, reads, Bool.not_eq_true _ ▸ filled⟩, others, later⟩
          · rintro ⟨_, _, others, later⟩
            exact ⟨_, others, later, rfl⟩

/-- Rules are compiled if their names differ from each other and from those that are taken, and the
patterns that are on can be used. -/
theorem exists_compileAfter_eq_ok {seen : List String} {rules : List CustomRule} :
    (∃ compiled, Rule.compileAfter interpreter.compile seen rules = .ok compiled) ↔
      AreUsable interpreter rules ∧ ∀ rule ∈ rules, rule.name ∉ seen := by
  induction rules generalizing seen with
  | nil =>
    refine iff_of_true ⟨[], rfl⟩ ⟨⟨List.nodup_nil, ?_⟩, ?_⟩
    · exact fun _ member => absurd member List.not_mem_nil
    · exact fun _ member => absurd member List.not_mem_nil
  | cons rule rest inductionHypothesis =>
    rw [exists_compileAfter_cons_eq_ok, inductionHypothesis, areUsable_cons, List.forall_mem_cons]
    simp only [List.mem_cons, not_or, forall_and]
    tauto

theorem exists_compile_eq_ok {rules : List CustomRule} :
    (∃ compiled, Rule.compile rules interpreter.compile = .ok compiled) ↔
      AreUsable interpreter rules := by
  rw [Rule.compile, exists_compileAfter_eq_ok]
  exact and_iff_left fun _ _ => List.not_mem_nil

end Settings

end CrateAudit

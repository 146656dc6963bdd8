/-
This file says which tables are accepted as settings, and what is made of them. A table is
refused exactly if what it says about kinds or custom rules is no description of any, or
if the rules that it describes share a name or have a pattern that an audit cannot use.
A setting of any other key is never a reason to refuse: it holds what was written if that
is of its type, else its default, and there is one warning for each that was not. All this
holds exactly where every value that has to be shown has a text: without one the reading
breaks off.
-/

import CrateAudit.Proofs.DescribedRules
import CrateAudit.Proofs.TypedSettings

namespace CrateAudit.Settings

variable {interpreter : Interpreter}

/-! ### The whole table -/

/-- What a table says about kinds and custom rules can be used. -/
def IsAcceptable (interpreter : Interpreter) (table : Table) : Prop :=
  ∃ kinds rules, DescribesKinds (table.lookup "enabled_kinds") kinds ∧
    DescribesRules (table.lookup "custom_rules") rules ∧ AreUsable interpreter rules

/-- The settings are those that a table describes, with the default of each setting about which the
table says nothing of its type. -/
structure AreOf (settings : Settings) (interpreter : Interpreter) (table : Table) : Prop where
  kinds : DescribesKinds (table.lookup "enabled_kinds") settings.kinds
  rules : DescribesRules (table.lookup "custom_rules") settings.customRules
  usable : AreUsable interpreter settings.customRules
  wholeNumbers : ∀ setting ∈ wholeNumbers,
    setting.get settings = setting.resolved table ∧ 0 < setting.get settings
  truthValues : ∀ setting ∈ truthValues, setting.get settings = setting.resolved table
  textLists : ∀ setting ∈ textLists, setting.get settings = setting.resolved table

/-- A table is validated in full: it is refused exactly if what it says about kinds or custom rules
cannot be used, and then nothing is warned about but unknown keys. Else the settings are those that
it describes, and there is one warning for each unknown key and then one for each setting with a
default that was rejected. -/
structure IsValidated (interpreter : Interpreter) (table : Table) : Prop where
  refused_iff :
    (∃ fault, (read table interpreter).2 = .error fault ∧ fault.isBreakdown = false) ↔
      ¬ IsAcceptable interpreter table
  refused : ∀ fault, (read table interpreter).2 = .error fault →
    (read table interpreter).1 = unknownWarnings table
  accepted : IsAcceptable interpreter table → ∃ settings,
    (read table interpreter).2 = .ok settings ∧ settings.AreOf interpreter table ∧
      (read table interpreter).1 = unknownWarnings table ++ (rejections table wholeNumbers ++
        rejections table truthValues ++ rejections table textLists)

/-- Why the reading of a table breaks off: before anything in it could be refused, a value comes up
that has to be shown and has no text. -/
inductive BreaksOff (interpreter : Interpreter) (table : Table) : Prop
  | kind (items : List Value) (listed : table.lookup "enabled_kinds" = some (.list items))
    (deep : BreaksAtFirstMisfit (fun item => ∃ kind, Names item kind)
      (fun item => item.textFault? interpreter.tooDeepToShow = some .nestedTooDeep) items)
  | rule (kinds : Option (List Kind))
    (named : DescribesKinds (table.lookup "enabled_kinds") kinds) (items : List Value)
    (listed : table.lookup "custom_rules" = some (.list items))
    (silent : BreaksAtFirstMisfit (fun value => ∃ rule, IsShownRule interpreter value rule)
      (IsUnshownRule interpreter) items)
  | number (acceptable : IsAcceptable interpreter table) (setting : TypedSetting (List String))
    (member : setting ∈ textLists) (long : setting.ListsLongNumber table)

section

variable {table : Table}

theorem isUnshown_readStrict :
    IsUnshown (readStrict interpreter table) ↔
      IsUnshown (readKinds interpreter (table.lookup "enabled_kinds")) ∨
        (∃ kinds, DescribesKinds (table.lookup "enabled_kinds") kinds) ∧
          IsUnshown (readCustomRules interpreter (table.lookup "custom_rules")) := by
  have compiled {customRules : List CustomRule} {kinds : Option (List Kind)} :
      ¬ IsUnshown ((RuleSet.make customRules kinds interpreter.compile).mapError .rule) := by
    rintro ⟨cause, same⟩
    cases made : RuleSet.make customRules kinds interpreter.compile <;> rw [made] at same <;>
      cases same
  simp only [readStrict, isUnshown_bind, readKinds_eq_ok]
  refine or_congr_right ⟨?_, ?_⟩
  · rintro ⟨kinds, named, broken | ⟨_, _, broken | ⟨_, _, broken⟩⟩⟩
    · exact ⟨⟨kinds, named⟩, broken⟩
    · exact absurd broken compiled
    · exact absurd broken (not_isUnshown_ok _)
  · rintro ⟨⟨kinds, named⟩, broken⟩
    exact ⟨kinds, named, .inl broken⟩

theorem isAcceptable_of_readStrict {strict : Option (List Kind) × List CustomRule × RuleSet}
    (made : readStrict interpreter table = .ok strict) : IsAcceptable interpreter table := by
  obtain ⟨kinds, rules, ruleSet⟩ := strict
  obtain ⟨named, described, custom, compiled, _⟩ := readStrict_eq_ok.mp made
  exact ⟨kinds, rules, readKinds_eq_ok.mp named, describesRules_of_readCustomRules described,
    exists_compile_eq_ok.mp ⟨custom, compiled⟩⟩

/-- What can be used is read, unless a rule has no text. -/
theorem readStrict_of_isAcceptable (acceptable : IsAcceptable interpreter table) :
    (∃ strict, readStrict interpreter table = .ok strict) ∨
      IsUnshown (readStrict interpreter table) := by
  obtain ⟨kinds, rules, named, described, usable⟩ := acceptable
  rcases readCustomRules_of_describesRules described with made | broken
  · obtain ⟨custom, compiled⟩ := exists_compile_eq_ok.mpr usable
    exact .inl ⟨_, readStrict_eq_ok.mpr ⟨readKinds_eq_ok.mpr named, made, custom, compiled, rfl⟩⟩
  · exact .inr (isUnshown_readStrict.mpr (.inr ⟨⟨kinds, named⟩, broken⟩))

/-- What has to be shown before the settings with a default can all be shown. -/
theorem not_isUnshown_readStrict (whole : ¬ BreaksOff interpreter table) :
    ¬ IsUnshown (readStrict interpreter table) := by
  intro broken
  rcases isUnshown_readStrict.mp broken with broken | ⟨⟨kinds, named⟩, broken⟩
  · obtain ⟨items, listed, deep⟩ := isUnshown_readKinds.mp broken
    exact whole (.kind items listed deep)
  · obtain ⟨items, listed, silent⟩ := isUnshown_readCustomRules.mp broken
    exact whole (.rule kinds named items listed silent)

theorem areOf_of_readStrict {kinds : Option (List Kind)} {customRules : List CustomRule}
    {rules : RuleSet} (strict : readStrict interpreter table = .ok (kinds, customRules, rules))
    {settings : Settings} (short : ∀ setting ∈ textLists, ¬ setting.ListsLongNumber table)
    (typed : (readTyped table kinds customRules rules).2 = .ok settings) :
    settings.AreOf interpreter table := by
  obtain ⟨named, described, custom, compiled, _⟩ := readStrict_eq_ok.mp strict
  rw [readTyped_eq short] at typed
  cases typed
  refine ⟨readKinds_eq_ok.mp named, describesRules_of_readCustomRules described,
    exists_compile_eq_ok.mp ⟨custom, compiled⟩, ?_, ?_, ?_⟩
  · intro setting member
    have positive : 0 < setting.resolved table := resolved_wholeNumber_pos member
    simp only [wholeNumbers, List.mem_cons, List.not_mem_nil, or_false] at member
    rcases member with rfl | rfl | rfl | rfl <;> exact ⟨rfl, positive⟩
  · intro setting member
    simp only [truthValues, List.mem_cons, List.not_mem_nil, or_false] at member
    rcases member with rfl | rfl | rfl | rfl <;> rfl
  · intro setting member
    simp only [textLists, List.mem_cons, List.not_mem_nil, or_false] at member
    rcases member with rfl | rfl | rfl <;> rfl

theorem read_of_readStrict_error {fault : Fault}
    (refused : readStrict interpreter table = .error fault) :
    read table interpreter = (unknownWarnings table, .error fault) := by
  rw [read, refused, unknownKeys_eq]

/-- The reading ends at a value without a text if it breaks off. -/
theorem isUnshown_read (broken : BreaksOff interpreter table) :
    IsUnshown (read table interpreter).2 := by
  have early (broken : IsUnshown (readStrict interpreter table)) :
      IsUnshown (read table interpreter).2 := by
    obtain ⟨cause, same⟩ := broken
    exact ⟨cause, congrArg Prod.snd (read_of_readStrict_error same)⟩
  cases broken with
  | kind items listed deep =>
    exact early (isUnshown_readStrict.mpr
      (.inl (isUnshown_readKinds.mpr ⟨items, listed, deep⟩)))
  | rule kinds named items listed silent =>
    exact early (isUnshown_readStrict.mpr
      (.inr ⟨⟨kinds, named⟩, isUnshown_readCustomRules.mpr ⟨items, listed, silent⟩⟩))
  | number acceptable setting member long =>
    rcases readStrict_of_isAcceptable acceptable with ⟨⟨kinds, rules, ruleSet⟩, made⟩ | broken
    · refine ⟨.tooManyDigits, ?_⟩
      rw [read, made]
      simp only [readTyped, readTextLists_eq_error member long]
      rfl
    · exact early broken

/-- A fault is a reason to refuse a table that has all its texts, unless a pattern is too large. -/
theorem isBreakdown_of_readStrict_error {fault : Fault} (whole : ¬ BreaksOff interpreter table)
    (refused : readStrict interpreter table = .error fault)
    (granted : ∀ name, fault ≠ .rule (.badPattern name .repetitionTooLarge)) :
    fault.isBreakdown = false := by
  cases fault with
  | unshown cause => exact absurd ⟨cause, refused⟩ (not_isUnshown_readStrict whole)
  | rule fault =>
    cases fault with
    | badPattern name cause =>
      cases cause with
      | repetitionTooLarge => exact absurd rfl (granted name)
      | _ => rfl
    | _ => rfl
  | _ => rfl

/-- What is refused is validated by refusing it. -/
theorem isValidated_of_readStrict_error {fault : Fault} (whole : ¬ BreaksOff interpreter table)
    (refused : readStrict interpreter table = .error fault) (plain : fault.isBreakdown = false) :
    IsValidated interpreter table := by
  have made := read_of_readStrict_error refused
  have unacceptable : ¬ IsAcceptable interpreter table := by
    intro acceptable
    rcases readStrict_of_isAcceptable acceptable with ⟨_, accepted⟩ | broken
    · cases refused.symm.trans accepted
    · exact not_isUnshown_readStrict whole broken
  exact ⟨iff_of_true ⟨fault, congrArg Prod.snd made, plain⟩ unacceptable,
    fun _ _ => congrArg Prod.fst made, fun acceptable => absurd acceptable unacceptable⟩

/-- What is accepted gives settings, if no list of texts holds a number that has none. -/
theorem isValidated_of_readStrict_ok {kinds : Option (List Kind)} {customRules : List CustomRule}
    {rules : RuleSet} (whole : ¬ BreaksOff interpreter table)
    (accepted : readStrict interpreter table = .ok (kinds, customRules, rules)) :
    IsValidated interpreter table := by
  have acceptable := isAcceptable_of_readStrict accepted
  have short : ∀ setting ∈ textLists, ¬ setting.ListsLongNumber table :=
    fun setting member long => whole (.number acceptable setting member long)
  have typed := readTyped_eq short kinds customRules rules
  have made : read table interpreter =
      (unknownWarnings table ++ (readTyped table kinds customRules rules).1,
        (readTyped table kinds customRules rules).2.mapError .unshown) := by
    rw [read, accepted, unknownKeys_eq]
  rw [typed] at made
  refine ⟨iff_of_false ?_ (not_not_intro acceptable), ?_, fun _ => ⟨_, congrArg Prod.snd made,
    areOf_of_readStrict accepted short (congrArg Prod.snd typed), congrArg Prod.fst made⟩⟩
  · rintro ⟨fault, refused, _⟩
    rw [made] at refused
    cases refused
  · intro fault refused
    rw [made] at refused
    cases refused

end

/-- A table is validated in full exactly if its reading does not break off, as long as no pattern of
its rules asks for more repetitions than can be compiled. -/
theorem isValidated_iff {interpreter : Interpreter} {table : Table}
    (granted : ∀ name, (read table interpreter).2 ≠
      .error (.rule (.badPattern name .repetitionTooLarge))) :
    IsValidated interpreter table ↔ ¬ BreaksOff interpreter table := by
  constructor
  · intro validated broken
    obtain ⟨cause, made⟩ := isUnshown_read broken
    by_cases acceptable : IsAcceptable interpreter table
    · obtain ⟨settings, read, _⟩ := validated.accepted acceptable
      cases made.symm.trans read
    · obtain ⟨fault, read, refused⟩ := validated.refused_iff.mpr acceptable
      cases made.symm.trans read
      cases refused
  · intro whole
    cases strict : readStrict interpreter table with
    | error fault =>
      have refused := congrArg Prod.snd (read_of_readStrict_error strict)
      refine isValidated_of_readStrict_error whole strict ?_
      exact isBreakdown_of_readStrict_error whole strict fun name same =>
        granted name (same ▸ refused)
    | ok accepted => exact isValidated_of_readStrict_ok whole strict

/-- Settings with an unknown key, a truth value for a number, and a rule that is off. -/
def mixedTable : Table :=
  [("colour", .null), ("max_workers", .boolean true), ("max_file_lines", .integer 500),
    ("enabled_kinds", .list [.string "UnwrapInProduction", .string "MISSING_DOCS"]),
    ("custom_rules", .list
      [.table [("name", .string "todo"), ("pattern", .string "TODO"),
        ("severity", .string " Error ")],
      .table [("name", .string "open"), ("pattern", .string "("), ("enabled", .integer 0)]])]

theorem isValidated_iff_mixedTable :
    (∀ name, (read mixedTable).2 ≠ .error (.rule (.badPattern name .repetitionTooLarge))) ∧
      IsValidated .plain mixedTable ∧ IsAcceptable .plain mixedTable ∧
      (read mixedTable).1 = [.unknownKey "colour", .notPositive "max_workers" 8] := by
  have ok : (read mixedTable).2.isOk = true := by decide
  obtain ⟨settings, made⟩ := exists_of_isOk ok
  have granted : ∀ name, (read mixedTable).2 ≠
      .error (.rule (.badPattern name .repetitionTooLarge)) := by simp [made]
  have whole : ¬ BreaksOff .plain mixedTable := by
    intro broken
    obtain ⟨cause, same⟩ := isUnshown_read broken
    cases made.symm.trans same
  have validated := (isValidated_iff granted).mpr whole
  refine ⟨granted, validated, not_not.mp fun unacceptable => ?_, by decide⟩
  obtain ⟨fault, refused, _⟩ := validated.refused_iff.mpr unacceptable
  cases made.symm.trans refused

/-- An excluded directory whose name is a number that is written with 3601 hexadecimal digits. -/
def longTable : Table :=
  [("exclude_dirs", .list [.integer (Nat.pow 16 3600)])]

/-- Nothing is wrong with a number for a name, but one so long breaks the reading off. -/
theorem not_isValidated_longTable :
    IsAcceptable .plain longTable ∧
      (∀ name, (read longTable).2 ≠ .error (.rule (.badPattern name .repetitionTooLarge))) ∧
      ¬ IsValidated .plain longTable := by
  have acceptable : IsAcceptable .plain longTable :=
    ⟨none, [], rfl, rfl, List.nodup_nil, fun _ member => absurd member List.not_mem_nil⟩
  have long : Number.isTooLong (Nat.pow 16 3600) = true := by decide +kernel
  have broken : BreaksOff .plain longTable :=
    .number acceptable (textList "exclude_dirs" ["target"] excludedDirectories)
      (by simp [textLists]) ⟨_, _, rfl, List.mem_singleton_self _, long⟩
  have unshown := isUnshown_read broken
  refine ⟨acceptable, fun name refused => ?_, fun validated => ?_⟩
  · obtain ⟨cause, same⟩ := unshown
    cases same.symm.trans refused
  · obtain ⟨settings, made, _⟩ := validated.accepted acceptable
    obtain ⟨cause, same⟩ := unshown
    cases same.symm.trans made

end CrateAudit.Settings

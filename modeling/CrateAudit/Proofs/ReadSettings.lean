/-
This file says when settings are read from a table, and what they then have in common.
The rules that they add all report under one kind of their own, so that no custom rule
can be taken for a built-in one.
-/

import CrateAudit.Proofs.FallibleSteps
import CrateAudit.Settings

namespace CrateAudit

theorem Rule.kind_of_mem_compileAfter {compiler : String → Except Regex.Fault Regex}
    {seen : List String} {described : List CustomRule} {rules : List Rule}
    (compiled : compileAfter compiler seen described = .ok rules) :
    ∀ rule ∈ rules, rule.kind = .customPattern := by
  induction described generalizing seen rules with
  | nil =>
    cases compiled
    exact fun rule member => absurd member List.not_mem_nil
  | cons first rest inductionHypothesis =>
    rw [compileAfter] at compiled
    split at compiled
    · cases compiled
    · split at compiled
      · exact inductionHypothesis compiled
      · split at compiled
        · cases compiled
        · split at compiled
          · cases compiled
          · obtain ⟨others, later, rfl⟩ := map_eq_ok_iff.mp compiled
            intro rule member
            rcases List.mem_cons.mp member with rfl | member
            · rfl
            · exact inductionHypothesis later rule member

namespace Settings

variable {interpreter : Interpreter} {table : Table} {settings : Settings}

theorem readStrict_eq_ok {kinds : Option (List Kind)} {customRules : List CustomRule}
    {rules : RuleSet} :
    readStrict interpreter table = .ok (kinds, customRules, rules) ↔
      readKinds interpreter (table.lookup "enabled_kinds") = .ok kinds ∧
        readCustomRules interpreter (table.lookup "custom_rules") = .ok customRules ∧
        ∃ custom, Rule.compile customRules interpreter.compile = .ok custom ∧
          rules = ⟨custom, kinds.getD Kind.all⟩ := by
  simp only [readStrict, RuleSet.make, bind_eq_ok_iff, mapError_eq_ok_iff, map_eq_ok_iff]
  constructor
  · rintro ⟨kinds, named, customRules, described, rules, ⟨custom, compiled, rfl⟩, ⟨⟩⟩
    exact ⟨named, described, custom, compiled, rfl⟩
  · rintro ⟨named, described, custom, compiled, rfl⟩
    exact ⟨kinds, named, customRules, described, _, ⟨custom, compiled, rfl⟩, rfl⟩

/-- The settings without a default are taken over as they were read. -/
theorem eq_of_readTyped {kinds : Option (List Kind)} {customRules : List CustomRule}
    {rules : RuleSet} (typed : (readTyped table kinds customRules rules).2 = .ok settings) :
    settings.source = table ∧ settings.kinds = kinds ∧ settings.customRules = customRules ∧
      settings.rules = rules := by
  obtain ⟨texts, _, rfl⟩ := map_eq_ok_iff.mp typed
  exact ⟨rfl, rfl, rfl, rfl⟩

/-- A table is read if the kinds that it names exist, its custom rules are well formed, their
patterns can be searched for, and the entries of its lists can be shown. -/
theorem read_eq_ok :
    (read table interpreter).2 = .ok settings ↔
      ∃ kinds customRules custom,
        readKinds interpreter (table.lookup "enabled_kinds") = .ok kinds ∧
        readCustomRules interpreter (table.lookup "custom_rules") = .ok customRules ∧
        Rule.compile customRules interpreter.compile = .ok custom ∧
        (readTyped table kinds customRules ⟨custom, kinds.getD Kind.all⟩).2 = .ok settings := by
  rw [read]
  constructor
  · intro made
    split at made
    · cases made
    · rename_i kinds customRules rules strict
      obtain ⟨named, described, custom, compiled, rfl⟩ := readStrict_eq_ok.mp strict
      exact ⟨kinds, customRules, custom, named, described, compiled, mapError_eq_ok_iff.mp made⟩
  · rintro ⟨kinds, customRules, custom, named, described, compiled, typed⟩
    rw [readStrict_eq_ok.mpr ⟨named, described, custom, compiled, rfl⟩]
    exact mapError_eq_ok_iff.mpr typed

theorem source_of_read (readable : (read table interpreter).2 = .ok settings) :
    settings.source = table := by
  obtain ⟨_, _, _, _, _, _, typed⟩ := read_eq_ok.mp readable
  exact (eq_of_readTyped typed).1

/-- The rules that the settings add report under the kind that is for them. -/
def AddsOwnKind (settings : Settings) : Prop :=
  ∀ rule ∈ settings.rules.custom, rule.kind = .customPattern

/-- Settings that were read from a table do. -/
theorem addsOwnKind_of_read (readable : (read table interpreter).2 = .ok settings) :
    settings.AddsOwnKind := by
  obtain ⟨_, _, _, _, _, compiled, typed⟩ := read_eq_ok.mp readable
  rw [AddsOwnKind, (eq_of_readTyped typed).2.2.2]
  exact Rule.kind_of_mem_compileAfter compiled

/-- The settings of an empty table. -/
def standard : Settings where
  source := []
  kinds := none
  customRules := []
  rules := ⟨[], Kind.all⟩
  maxFileLines := 300
  maxFunctionLines := 50
  maxLineLength := 100
  maxWorkers := 8
  banUnderscoreBandaid := true
  requireDocumentation := true
  allowUnwrap := false
  allowExpect := false
  allowedEditions := ["2021", "2024"]
  requiredDependencies := []
  excludedDirectories := ["target"]

theorem read_nil : (read [] interpreter).2 = .ok standard := rfl

end Settings

end CrateAudit

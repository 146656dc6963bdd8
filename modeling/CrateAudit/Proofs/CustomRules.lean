/-
This file says where a custom rule is reported: on a line whose first match has a text
that also stands in code, or no text at all. The place of a match does not count, nor do
the matches after the first one. So a rule is reported where it matches in code if its
first match does; otherwise only if the text of that match happens to tell the same.
-/

import CrateAudit.Proofs.Matches
import CrateAudit.Proofs.ReportOrder
import CrateAudit.Proofs.ReportedCalls

namespace CrateAudit

namespace Rust

/-- A text that occurs in a line is not inert there exactly if it is empty or stands in code. -/
theorem isInert_eq_false_iff {line sought : Line} {offset : Nat}
    (occurs : offset ∈ Text.occurrences sought line) :
    isInert line sought = false ↔ sought = [] ∨ ∃ offset ∈ Text.occurrences sought line,
      (lex line).contextAt offset = .code := by
  have some : Text.occurrences sought line ≠ [] := List.ne_nil_of_mem occurs
  cases sought with
  | nil => simp [isInert]
  | cons character rest => simp [isInert, some]

end Rust

namespace Rule

/-- What is reported where a custom rule matches. -/
def reportAt (rule : Rule) (source : Source) (index : Nat) : Violation :=
  ⟨rule.kind, source.path, index + 1, rule.message ++ " [" ++ rule.name ++ "]", rule.severity⟩

/-- Whether a custom rule is reported on a line. -/
def isReportedOn (rule : Rule) (line : Line) : Bool :=
  (rule.regex.search? line).any fun found => !Rust.isInert line found.text

/-- Some match of the rule in a line begins in code. -/
def MatchesInCode (rule : Rule) (line : Line) : Prop :=
  ∃ found ∈ rule.regex.matchesOf line, (Rust.lex line).contextAt found.start = .code

/-- What the first match of the rule has for a text tells whether the rule matches in code, in case
the match itself does not begin there: there is no text, or it stands in code elsewhere, exactly if
a later match begins in code. -/
def IsTellingOn (rule : Rule) (line : Line) : Prop :=
  ∀ first, rule.regex.search? line = some first → (Rust.lex line).contextAt first.start ≠ .code →
    ((first.text = [] ∨ ∃ offset ∈ Text.occurrences first.text line,
        (Rust.lex line).contextAt offset = .code) ↔
      rule.MatchesInCode line)

/-! ### One line -/

theorem isReportedOn_iff {rule : Rule} {line : Line} :
    rule.isReportedOn line = true ↔ ∃ first, rule.regex.search? line = some first ∧
      (first.text = [] ∨ ∃ offset ∈ Text.occurrences first.text line,
        (Rust.lex line).contextAt offset = .code) := by
  rw [isReportedOn, Option.any_eq_true]
  refine exists_congr fun first => and_congr_right fun matched => ?_
  have member : first ∈ rule.regex.matchesOf line := by
    rw [← Regex.head?_matchesOf] at matched
    exact List.mem_of_mem_head? matched
  rw [Bool.not_eq_true', Rust.isInert_eq_false_iff (Regex.standsIn_of_mem_matchesOf member).text]

/-- A rule is reported exactly where it matches in code if and only if its first match tells. -/
theorem isReportedOn_iff_matchesInCode_iff (rule : Rule) (line : Line) :
    (rule.isReportedOn line = true ↔ rule.MatchesInCode line) ↔ rule.IsTellingOn line := by
  rw [isReportedOn_iff]
  cases matched : rule.regex.search? line with
  | none =>
    have none : ¬ rule.MatchesInCode line := by
      rintro ⟨found, member, _⟩
      have head := Regex.head?_matchesOf rule.regex line
      rw [matched, List.head?_eq_none_iff] at head
      rw [head] at member
      cases member
    simp [IsTellingOn, matched, none]
  | some first =>
    have member : first ∈ rule.regex.matchesOf line := by
      rw [← Regex.head?_matchesOf] at matched
      exact List.mem_of_mem_head? matched
    by_cases code : (Rust.lex line).contextAt first.start = .code
    · have here := (Regex.standsIn_of_mem_matchesOf member).text
      refine iff_of_true (iff_of_true ⟨first, rfl, Or.inr ⟨_, here, code⟩⟩ ⟨first, member, code⟩) ?_
      intro other same apart
      cases matched.symm.trans same
      exact absurd code apart
    · simp [IsTellingOn, matched, code]

end Rule

namespace Scan

variable {settings : Settings} {source : Source} {index : Nat}

/-! ### What a scan reports for custom rules -/

/-- Whether a violation is one of a custom rule on a line, counted from zero. -/
def isCustomAt (index : Nat) (violation : Violation) : Bool :=
  violation.kind = .customPattern ∧ violation.line = (index : Int) + 1

theorem checkCustomRule_eq (source : Source) (index : Nat) (line : Line) (rule : Rule) :
    checkCustomRule source index line rule =
      if rule.isReportedOn line then [rule.reportAt source index] else [] := by
  rw [checkCustomRule, Rule.isReportedOn]
  cases rule.regex.search? line with
  | none => rfl
  | some found => cases inert : Rust.isInert line found.text <;> simp [inert, Rule.reportAt]

/-- The custom rules that are reported on a line, each of them once and in their order. -/
theorem checkCustomRules_eq (own : settings.AddsOwnKind)
    (enabled : settings.isEnabled .customPattern = true) (line : Line) :
    checkCustomRules settings source index line =
      (settings.rules.custom.filter (·.isReportedOn line)).map (·.reportAt source index) := by
  have all : settings.rules.custom.filter (fun rule => settings.isEnabled rule.kind) =
      settings.rules.custom :=
    List.filter_eq_self.mpr fun rule member => by rw [own rule member, enabled]
  rw [checkCustomRules, all]
  induction settings.rules.custom with
  | nil => rfl
  | cons rule rest inductionHypothesis =>
    rw [List.flatMap_cons, inductionHypothesis, checkCustomRule_eq]
    cases reported : rule.isReportedOn line <;> simp [reported]

/-- Findings of other kinds are none of custom rules. -/
theorem filter_isCustomAt_of_kind {found : List Violation}
    (other : ∀ violation ∈ found, violation.kind ≠ .customPattern) :
    found.filter (isCustomAt index) = [] :=
  List.filter_eq_nil_iff.mpr fun violation member custom =>
    other violation member (of_decide_eq_true custom).1

/-- Of what is found on a line, the custom rules alone are reported as such, and only there. -/
theorem filter_checkLine (own : settings.AddsOwnKind) (exempt : Exemptions) (inTest : Bool)
    (place : Nat) (line : Line) :
    (checkLine settings exempt source inTest place line).filter (isCustomAt index) =
      if place = index then checkCustomRules settings source index line else [] := by
  have functions : (if definesFunction line then checkFunction settings source place else []).filter
      (isCustomAt index) = [] := by
    refine filter_isCustomAt_of_kind fun violation member => ?_
    split at member
    · rcases (of_mem_checkFunction member).2 with kind | kind <;> rw [kind] <;> decide
    · cases member
  have bindings : (if checksUnderscores settings then
      checkLiteral Rule.underscoreBinding source place line else []).filter
        (isCustomAt index) = [] := by
    refine filter_isCustomAt_of_kind fun violation member => ?_
    split at member
    · rw [eq_of_mem_checkLiteral member]
      exact fun same => Kind.noConfusion (same : Kind.underscoreBandaid = .customPattern)
    · cases member
  have calls : (if inTest then [] else
      (if exempt.unwrap then [] else checkCall settings Rule.unwrapCall source place line) ++
      (if exempt.expect then [] else checkCall settings Rule.expectCall source place line) ++
      (if settings.requireDocumentation then checkDocs settings source place line else [])).filter
        (isCustomAt index) = [] := by
    refine filter_isCustomAt_of_kind fun violation member => ?_
    split at member
    · cases member
    · rcases List.mem_append.mp member with call | docs
      · rw [(of_mem_checkCalls call).2]
        decide
      · split at docs
        · rw [(of_mem_checkDocs docs).2]
          decide
        · cases docs
  have length : (checkLineLength settings source place line).filter (isCustomAt index) = [] := by
    refine filter_isCustomAt_of_kind fun violation member => ?_
    rw [(of_mem_checkLineLength member).2]
    decide
  rw [checkLine]
  simp only [List.filter_append, functions, bindings, calls, length, List.nil_append]
  split
  · rename_i same
    rw [same]
    refine List.filter_eq_self.mpr fun violation member => ?_
    obtain ⟨stands, rule, listed, kind⟩ := of_mem_checkCustomRules member
    exact decide_eq_true ⟨kind.trans (own rule listed), stands.line⟩
  · rename_i apart
    refine List.filter_eq_nil_iff.mpr fun violation member custom => ?_
    have number := (of_mem_checkCustomRules member).1.line
    have same := (of_decide_eq_true custom).2
    omega

/-- Every line is looked at once. -/
theorem filter_checkLinesFrom (own : settings.AddsOwnKind) (exempt : Exemptions)
    (scope : TestScope) (start : Nat) (lines : List Line) :
    (checkLinesFrom settings exempt source scope start lines).filter (isCustomAt index) =
      if start ≤ index then
        ((lines[index - start]?).map (checkCustomRules settings source index)).getD []
      else [] := by
  induction lines generalizing scope start with
  | nil => simp [checkLinesFrom]
  | cons line rest inductionHypothesis =>
    rw [checkLinesFrom, List.filter_append, filter_checkLine own, inductionHypothesis]
    rcases Nat.lt_trichotomy start index with below | same | above
    · obtain ⟨count, rfl⟩ := Nat.exists_eq_add_of_lt below
      have next : start + count + 1 - start = count + 1 := by omega
      have rest : start + count + 1 - (start + 1) = count := by omega
      rw [if_neg (by omega), if_pos (by omega), if_pos (by omega), List.nil_append, next, rest,
        List.getElem?_cons_succ]
    · simp [same]
    · rw [if_neg (by omega), if_neg (by omega), if_neg (by omega), List.nil_append]

/-- What a scan reports for custom rules on a line of the file. -/
theorem filter_rustFile (own : settings.AddsOwnKind)
    (enabled : settings.isEnabled .customPattern = true) (testPath : Option String) {line : Line}
    (stands : source.lines[index]? = some line) :
    (rustFile settings source testPath).filter (isCustomAt index) =
      (settings.rules.custom.filter (·.isReportedOn line)).map (·.reportAt source index) := by
  have size : (checkFileSize settings source).filter (isCustomAt index) = [] := by
    refine filter_isCustomAt_of_kind fun violation member => ?_
    rw [(of_mem_checkFileSize member).2]
    decide
  rw [rustFile_eq, Violation.filter_sortInFile, findings, List.filter_append, size,
    filter_checkLinesFrom own, if_pos (Nat.zero_le index), Nat.sub_zero, stands, List.nil_append,
    Option.map_some, Option.getD_some, checkCustomRules_eq own enabled]
  refine List.mergeSort_of_pairwise
    (List.pairwise_map.mpr (List.pairwise_iff_forall_sublist.mpr ?_))
  intro first second both
  have kind {rule : Rule} (member : rule ∈ [first, second]) : rule.kind = .customPattern :=
    own rule (List.mem_filter.mp (both.subset member)).1
  rw [Violation.atMostInFile_iff]
  exact Or.inr ⟨rfl, by simp [Rule.reportAt, kind]⟩

/-- A custom rule is reported on a line once or not at all, in the order of the rules, and it is
reported exactly where it matches in code if and only if its first match on the line tells. -/
theorem custom_reports_eq {table : Table} (readable : (Settings.read table).2 = .ok settings)
    (enabled : settings.isEnabled .customPattern = true) (testPath : Option String) {line : Line}
    (stands : source.lines[index]? = some line) :
    (rustFile settings source testPath).filter (isCustomAt index) =
        (settings.rules.custom.filter (·.isReportedOn line)).map (·.reportAt source index) ∧
      ∀ rule ∈ settings.rules.custom,
        (rule.isReportedOn line = true ↔ rule.MatchesInCode line) ↔ rule.IsTellingOn line :=
  ⟨filter_rustFile (Settings.addsOwnKind_of_read readable) enabled testPath stands,
    fun rule _ => rule.isReportedOn_iff_matchesInCode_iff line⟩

/-- Settings with a rule for two macros. -/
def macrosTable : Table :=
  [("custom_rules",
    .list [.table [("name", .string "macros"), ("pattern", .string "dbg!|todo!")]])]

/-- The rule for `dbg!` and `todo!`. -/
def macrosRule : Rule :=
  .ofCustom ⟨"macros", "dbg!|todo!", "Custom rule 'macros' matched", .warning, true⟩
    (.choice (.inOrder (Regex.parts "dbg!")) (.inOrder (Regex.parts "todo!")))

def macrosSettings : Settings :=
  { Settings.standard with
    source := macrosTable
    customRules := [⟨"macros", "dbg!|todo!", "Custom rule 'macros' matched", .warning, true⟩]
    rules := ⟨[macrosRule], Kind.all⟩ }

theorem read_macrosTable : (Settings.read macrosTable).2 = .ok macrosSettings :=
  Settings.read_eq_ok.mpr ⟨_, _, _, by rfl, by rfl, by decide, rfl⟩

/-- A function that names one macro in a text and calls the other one after it. -/
def macrosSource : Source :=
  .ofText "src/lib.rs" "fn f() \x7b\n    log(\"dbg!\", todo!());\n\x7d\n".toList

/-- Its second line. -/
def macrosLine : Line := "    log(\"dbg!\", todo!());".toList

theorem custom_reports_eq_macrosSource :
    (Settings.read macrosTable).2 = .ok macrosSettings ∧
      macrosSettings.isEnabled .customPattern = true ∧
      macrosSource.lines[1]? = some macrosLine ∧ macrosRule ∈ macrosSettings.rules.custom ∧
      (rustFile macrosSettings macrosSource none).filter (isCustomAt 1) =
        (macrosSettings.rules.custom.filter (·.isReportedOn macrosLine)).map
          (·.reportAt macrosSource 1) ∧
      ∀ rule ∈ macrosSettings.rules.custom,
        (rule.isReportedOn macrosLine = true ↔ rule.MatchesInCode macrosLine) ↔
          rule.IsTellingOn macrosLine := by
  have enabled : macrosSettings.isEnabled .customPattern = true := by decide
  have stands : macrosSource.lines[1]? = some macrosLine := by decide
  exact ⟨read_macrosTable, enabled, stands, List.mem_singleton_self macrosRule,
    custom_reports_eq read_macrosTable enabled none stands⟩

/-- The call is a match in code, but the rule is not reported: its first match is the text. -/
theorem not_reported_macrosSource :
    macrosSource.lines[1]? = some macrosLine ∧ macrosRule ∈ macrosSettings.rules.custom ∧
      macrosRule.MatchesInCode macrosLine ∧
      rustFile macrosSettings macrosSource none = [] := by
  refine ⟨by decide, List.mem_singleton_self macrosRule, ?_, by decide +kernel⟩
  rw [Rule.MatchesInCode]
  decide +kernel

end Scan

end CrateAudit

/-
This file says which calls that panic on failure are reported. A call is reported on
its own line exactly if it stands in the code of the line, the line is in no test, and
nothing exempts the file. An attribute for tests in a comment or a text opens a test
as well as one in code, so a call below it is missed.
-/

import CrateAudit.Proofs.CodeText
import CrateAudit.Proofs.Findings
import CrateAudit.Proofs.Planning
import CrateAudit.Proofs.Reaching
import CrateAudit.Proofs.ReadSettings
import CrateAudit.Proofs.TestScopes

namespace CrateAudit

namespace Scan

/-! ### Calls in the code of a line -/

theorem isPlainCode_unwrap (before : Line) : Rust.IsPlainCode before ".unwrap()".toList := by
  simp [Rust.IsPlainCode, Rust.mayOpenRaw, Rust.decisive?]
  decide

theorem isPlainCode_expect (before : Line) : Rust.IsPlainCode before ".expect(".toList := by
  simp [Rust.IsPlainCode]

/-- A rule for a text that nothing interrupts finds it exactly where it is code. -/
theorem checkLiteral_of_plain {rule : Rule} {text : String} (filled : text.toList ≠ [])
    (plain : ∀ before, Rust.IsPlainCode before text.toList)
    (regex : rule.regex = Regex.inOrder (Regex.parts text)) (literal : rule.literal = some text)
    (source : Source) (index : Nat) (line : Line) :
    checkLiteral rule source index line =
      if Text.includes text.toList (Rust.codeOnly line) then [rule.located source.path index]
      else [] := by
  rw [checkLiteral, regex, literal, Regex.occursIn_parts, Option.getD_some,
    Rust.includes_and_not_isInert filled plain]

/-- Whether a line holds a call in code that the file is not exempt from. -/
def HoldsCall (exempt : Exemptions) (line : Line) : Prop :=
  (exempt.unwrap = false ∧ Text.includes ".unwrap()".toList (Rust.codeOnly line) = true) ∨
    (exempt.expect = false ∧ Text.includes ".expect(".toList (Rust.codeOnly line) = true)

/-- Nothing is found unless the kind of these calls is enabled. -/
theorem enabled_of_mem_checkCalls {settings : Settings} {exempt : Exemptions} {source : Source}
    {index : Nat} {line : Line} {violation : Violation}
    (found : violation ∈ checkCalls settings exempt source index line) :
    settings.isEnabled .unwrapInProduction = true := by
  have switched {rule : Rule} (kind : rule.kind = .unwrapInProduction)
      (call : violation ∈ checkCall settings rule source index line) :
      settings.isEnabled .unwrapInProduction = true := by
    rw [checkCall, kind] at call
    split at call
    · assumption
    · cases call
  rcases List.mem_append.mp found with unwrap | expect
  · split at unwrap
    · cases unwrap
    · exact switched rfl unwrap
  · split at expect
    · cases expect
    · exact switched rfl expect

theorem exists_mem_checkCalls {settings : Settings}
    (enabled : settings.isEnabled .unwrapInProduction = true) {exempt : Exemptions}
    {source : Source} {index : Nat} {line : Line} :
    (∃ violation, violation ∈ checkCalls settings exempt source index line) ↔
      HoldsCall exempt line := by
  have switched (rule : Rule) (kind : rule.kind = .unwrapInProduction) :
      checkCall settings rule source index line = checkLiteral rule source index line := by
    rw [checkCall, kind, if_pos enabled]
  have unwrap := (switched Rule.unwrapCall rfl).trans
    (checkLiteral_of_plain (by decide) isPlainCode_unwrap rfl rfl source index line)
  have expect := (switched Rule.expectCall rfl).trans
    (checkLiteral_of_plain (by decide) isPlainCode_expect rfl rfl source index line)
  rw [checkCalls, unwrap, expect, HoldsCall]
  cases exempt.unwrap <;> cases exempt.expect <;>
    cases Text.includes ".unwrap()".toList (Rust.codeOnly line) <;>
    cases Text.includes ".expect(".toList (Rust.codeOnly line) <;> simp

/-- Custom rules report under the kind that is their own. -/
theorem kind_of_mem_checkCustomRules {settings : Settings} (own : settings.AddsOwnKind)
    {source : Source} {index : Nat} {line : Line} {violation : Violation}
    (found : violation ∈ checkCustomRules settings source index line) :
    violation.kind = .customPattern := by
  obtain ⟨_, rule, member, same⟩ := of_mem_checkCustomRules found
  rw [same, own rule member]

/-- What is found under the kind of these calls on a line are the calls on it. -/
theorem mem_checkLine_iff {settings : Settings} (own : settings.AddsOwnKind)
    {exempt : Exemptions} {source : Source} {inTest : Bool} {index : Nat} {line : Line}
    {violation : Violation} (kind : violation.kind = .unwrapInProduction) :
    violation ∈ checkLine settings exempt source inTest index line ↔
      inTest = false ∧ violation ∈ checkCalls settings exempt source index line := by
  rw [mem_checkLine]
  constructor
  · rintro (⟨_, functions⟩ | ⟨_, binding⟩ | calls | ⟨_, _, docs⟩ | length | custom)
    · rcases (of_mem_checkFunction functions).2 with other | other <;>
        exact absurd (kind.symm.trans other) (by decide)
    · rw [eq_of_mem_checkLiteral binding] at kind
      cases kind
    · exact calls
    · exact absurd (kind.symm.trans (of_mem_checkDocs docs).2) (by decide)
    · exact absurd (kind.symm.trans (of_mem_checkLineLength length).2) (by decide)
    · exact absurd (kind.symm.trans (kind_of_mem_checkCustomRules own custom)) (by decide)
  · exact fun calls => Or.inr (Or.inr (Or.inl calls))

/-! ### The lines of a file -/

/-- Every line is looked at once, in the scope that is known after it. -/
theorem checkLinesFrom_eq_flatMap (settings : Settings) (exempt : Exemptions) {source : Source}
    {index : Nat} {rest : List Line} (left : source.lines.drop index = rest) :
    checkLinesFrom settings exempt source (scopeAfter source.lines index) index rest =
      (rest.zipIdx index).flatMap fun place =>
        checkLine settings exempt source
          (exempt.isTest || (scopeAfter source.lines (place.2 + 1)).contains place.2)
          place.2 place.1 := by
  induction rest generalizing index with
  | nil => rfl
  | cons line rest inductionHypothesis =>
    rw [checkLinesFrom, ← scopeAfter_succ (getElem?_of_drop left),
      inductionHypothesis (drop_succ_of_drop left), List.zipIdx_cons, List.flatMap_cons]

theorem mem_checkLinesFrom_iff {settings : Settings} {exempt : Exemptions} {source : Source}
    {violation : Violation} :
    violation ∈ checkLinesFrom settings exempt source .start 0 source.lines ↔
      ∃ place line inTest, source.lines[place]? = some line ∧
        (inTest = true ↔ exempt.isTest = true ∨ IsInTest source.lines place) ∧
        violation ∈ checkLine settings exempt source inTest place line := by
  have test {place : Nat} {line : Line} (stands : source.lines[place]? = some line) :
      (exempt.isTest || (scopeAfter source.lines (place + 1)).contains place) = true ↔
        exempt.isTest = true ∨ IsInTest source.lines place := by
    rw [Bool.or_eq_true,
      (knows_scopeAfter (List.getElem?_eq_some_iff.mp stands).1).contains_iff]
  rw [← scopeAfter_zero source.lines, checkLinesFrom_eq_flatMap _ _ List.drop_zero,
    List.mem_flatMap]
  constructor
  · rintro ⟨⟨line, place⟩, member, found⟩
    have stands := List.mem_zipIdx_iff_getElem?.mp member
    exact ⟨place, line, _, stands, test stands, found⟩
  · rintro ⟨place, line, inTest, stands, sameTest, found⟩
    refine ⟨⟨line, place⟩, List.mem_zipIdx_iff_getElem?.mpr stands, ?_⟩
    rwa [show inTest = _ from Bool.eq_iff_iff.mpr (sameTest.trans (test stands).symm)] at found

/-- The path that tells whether a file holds tests. -/
def decidingPath (source : Source) : Option String → String
  | some path => if path.isEmpty then source.path else path
  | none => source.path

/-- What a file is exempt from in a scan. -/
def exemptionsIn (settings : Settings) (source : Source) (testPath : Option String) : Exemptions :=
  exemptions settings (decidingPath source testPath) source.lines

/-- The findings of a scan, before they are put in order. -/
def findings (settings : Settings) (source : Source) (testPath : Option String) :
    List Violation :=
  checkFileSize settings source ++
    checkLinesFrom settings (exemptionsIn settings source testPath) source .start 0 source.lines

theorem rustFile_eq (settings : Settings) (source : Source) (testPath : Option String) :
    rustFile settings source testPath =
      Violation.sortInFile (findings settings source testPath) := by
  cases testPath <;> rfl

/-- Findings that come in order are what a scan reports. -/
theorem rustFile_eq_of_pairwise {settings : Settings} {source : Source}
    {testPath : Option String} {violations : List Violation}
    (found : findings settings source testPath = violations)
    (sorted : violations.Pairwise fun earlier later => earlier.atMostInFile later = true) :
    rustFile settings source testPath = violations := by
  rw [rustFile_eq, found]
  exact List.mergeSort_of_pairwise sorted

theorem mem_rustFile_iff {settings : Settings} {source : Source} {testPath : Option String}
    {violation : Violation} :
    violation ∈ rustFile settings source testPath ↔
      violation ∈ checkFileSize settings source ∨
        ∃ place line inTest, source.lines[place]? = some line ∧
          (inTest = true ↔ isTestFile (decidingPath source testPath) = true ∨
            IsInTest source.lines place) ∧
          violation ∈ checkLine settings (exemptionsIn settings source testPath) source inTest
            place line := by
  rw [rustFile_eq, Violation.sortInFile, List.mem_mergeSort, findings, List.mem_append,
    mem_checkLinesFrom_iff]
  rfl

/-- What is found on a line, whether it is a test or not, is reported. -/
theorem mem_rustFile_of_checkLine {settings : Settings} {source : Source}
    {testPath : Option String} {index : Nat} {line : Line} {violation : Violation}
    (stands : source.lines[index]? = some line)
    (found : ∀ inTest, violation ∈ checkLine settings (exemptionsIn settings source testPath)
      source inTest index line) : violation ∈ rustFile settings source testPath := by
  obtain ⟨inTest, test⟩ : ∃ inTest, inTest = true ↔
      isTestFile (decidingPath source testPath) = true ∨ IsInTest source.lines index := by
    by_cases holds : isTestFile (decidingPath source testPath) = true ∨
        IsInTest source.lines index
    · exact ⟨true, iff_of_true rfl holds⟩
    · exact ⟨false, iff_of_false Bool.false_ne_true holds⟩
  exact mem_rustFile_iff.mpr (Or.inr ⟨index, line, inTest, stands, test, found inTest⟩)

/-- A call that is reported stands in the code of a line outside of tests, in a file that is no
test, and calls are banned. -/
theorem exists_line_of_mem_rustFile {settings : Settings} (own : settings.AddsOwnKind)
    {source : Source} {testPath : Option String} {violation : Violation}
    (found : violation ∈ rustFile settings source testPath)
    (kind : violation.kind = .unwrapInProduction) :
    settings.isEnabled .unwrapInProduction = true ∧
      isTestFile (decidingPath source testPath) = false ∧
      ∃ (index : Nat) (line : Line), violation.line = (index : Int) + 1 ∧
        source.lines[index]? = some line ∧ ¬ IsInTest source.lines index ∧
        HoldsCall (exemptionsIn settings source testPath) line := by
  rcases mem_rustFile_iff.mp found with size | ⟨index, line, inTest, stands, test, found⟩
  · exact absurd (kind.symm.trans (of_mem_checkFileSize size).2) (by decide)
  · obtain ⟨outside, call⟩ := (mem_checkLine_iff own kind).mp found
    have enabled := enabled_of_mem_checkCalls call
    have noTest : ¬ (isTestFile (decidingPath source testPath) = true ∨
        IsInTest source.lines index) := fun inside => by
      rw [test.mpr inside] at outside
      cases outside
    rw [not_or, Bool.not_eq_true] at noTest
    exact ⟨enabled, noTest.1, index, line, (of_mem_checkCalls call).1.line, stands, noTest.2,
      (exists_mem_checkCalls enabled).mp ⟨violation, call⟩⟩

/-- Whether a scan reports a call that panics on failure at a line, counted from zero. -/
def ReportsCall (settings : Settings) (source : Source) (testPath : Option String)
    (index : Nat) : Prop :=
  ∃ violation ∈ rustFile settings source testPath,
    violation.kind = .unwrapInProduction ∧ violation.line = index + 1

/-- A call is reported exactly where it stands in code outside of tests. -/
theorem reportsCall_iff {settings : Settings} (own : settings.AddsOwnKind)
    (enabled : settings.isEnabled .unwrapInProduction = true) {source : Source}
    {testPath : Option String}
    (production : isTestFile (decidingPath source testPath) = false) {index : Nat} :
    ReportsCall settings source testPath index ↔
      ∃ line, source.lines[index]? = some line ∧ ¬ IsInTest source.lines index ∧
        HoldsCall (exemptionsIn settings source testPath) line := by
  constructor
  · rintro ⟨violation, found, kind, number⟩
    obtain ⟨_, _, place, line, numbered, call⟩ := exists_line_of_mem_rustFile own found kind
    have same : place = index := by omega
    exact ⟨line, same ▸ call⟩
  · rintro ⟨line, stands, outside, holds⟩
    obtain ⟨violation, call⟩ := (exists_mem_checkCalls enabled).mpr holds
    obtain ⟨isAt, kind⟩ := of_mem_checkCalls call
    refine ⟨violation, mem_rustFile_iff.mpr (Or.inr ⟨index, line, false, stands, ?_,
      (mem_checkLine_iff own kind).mpr ⟨rfl, call⟩⟩), kind, isAt.line⟩
    constructor
    · exact fun impossible => absurd impossible Bool.false_ne_true
    · rintro (test | inside)
      · rw [production] at test
        cases test
      · exact absurd inside outside

/-! ### Calls that can be replaced -/

/-- Whether a call stands in code outside of tests where it can be replaced; `path` tells whether
all the lines are tests. -/
def HoldsReplaceableCall (settings : Settings) (path : String) (lines : List Line) : Prop :=
  isTestFile path = false ∧
    ∃ index line, lines[index]? = some line ∧ ¬ IsInTest lines index ∧
      HoldsCall (exemptions settings path lines) line ∧
      (Fix.enclosingFunction? lines index).any (·.canPropagate) = true ∧
      (Fix.propagateErrors line).isApplicable = true

/-- No reported call can be replaced exactly if none stands where it can be. -/
theorem calls_settled_iff {settings : Settings} (own : settings.AddsOwnKind) {source : Source}
    {testPath : Option String} :
    (∀ violation ∈ rustFile settings source testPath, violation.kind = .unwrapInProduction →
        Fix.isEditable source.lines violation = false) ↔
      (settings.isEnabled .unwrapInProduction = true →
        ¬ HoldsReplaceableCall settings (decidingPath source testPath) source.lines) := by
  have planned {violation : Violation} {index : Nat} {line : Line}
      (kind : violation.kind = .unwrapInProduction) (number : violation.line = (index : Int) + 1)
      (stands : source.lines[index]? = some line) :
      Fix.isEditable source.lines violation = true ↔
        (Fix.enclosingFunction? source.lines index).any (·.canPropagate) = true ∧
          (Fix.propagateErrors line).isApplicable = true := by
    rw [Fix.isEditable, Fix.plan_of_line number stands, kind]
    simp only
    split
    · rename_i propagates
      exact (and_iff_right propagates).symm
    · rename_i stuck
      exact iff_of_false Bool.false_ne_true fun both => stuck both.1
  constructor
  · rintro settled enabled ⟨production, index, line, stands, outside, holds, replaceable⟩
    obtain ⟨violation, found, kind, number⟩ :=
      (reportsCall_iff own enabled production).mpr ⟨line, stands, outside, holds⟩
    have editable := (planned kind number stands).mpr replaceable
    rw [settled violation found kind] at editable
    cases editable
  · intro clear violation found kind
    refine Bool.not_eq_true _ |>.mp fun editable => ?_
    obtain ⟨enabled, production, index, line, number, stands, outside, holds⟩ :=
      exists_line_of_mem_rustFile own found kind
    exact clear enabled ⟨production, index, line, stands, outside, holds,
      (planned kind number stands).mp editable⟩

/-! ### Attributes that are no code -/

/-- No attribute for tests stands in the code of any line. -/
def IsUnmarked (lines : List Line) : Prop :=
  ∀ line ∈ lines, ∀ sought ∈ testOnlyAttribute :: testAttributes,
    Text.includes sought (Rust.codeOnly line) = false

/-- The lines, counted from zero, with `.unwrap()` in their code. -/
def Unwraps (lines : List Line) (index : Nat) : Prop :=
  ∃ line, lines[index]? = some line ∧
    Text.includes ".unwrap()".toList (Rust.codeOnly line) = true

/-- A file without an attribute for tests in its code has all its `.unwrap()` reported exactly if
no such text outside of its code opens a test around one of them. -/
theorem unmarked_reportsCall_iff {table : Table} {settings : Settings}
    (readable : (Settings.read table).2 = .ok settings)
    (enabled : settings.isEnabled .unwrapInProduction = true)
    (banned : settings.allowUnwrap = false) {source : Source} {testPath : Option String}
    (production : isTestFile (decidingPath source testPath) = false)
    (strict : allowsLint "unwrap_used" source.lines = false) :
    (IsUnmarked source.lines → ∀ index, Unwraps source.lines index →
        ReportsCall settings source testPath index) ↔
      (IsUnmarked source.lines → ∀ index, Unwraps source.lines index →
        ¬ IsInTest source.lines index) := by
  have own := Settings.addsOwnKind_of_read readable
  have bound : (exemptionsIn settings source testPath).unwrap = false := by
    simp only [exemptionsIn, exemptions, strict, banned, Bool.or_self]
  have each (index : Nat) (unwraps : Unwraps source.lines index) :
      ReportsCall settings source testPath index ↔ ¬ IsInTest source.lines index := by
    obtain ⟨line, stands, holds⟩ := unwraps
    rw [reportsCall_iff own enabled production]
    constructor
    · rintro ⟨_, _, outside, _⟩
      exact outside
    · exact fun outside => ⟨line, stands, outside, Or.inl ⟨bound, holds⟩⟩
  constructor
  · exact fun reported unmarked index unwraps =>
      (each index unwraps).mp (reported unmarked index unwraps)
  · exact fun outside unmarked index unwraps =>
      (each index unwraps).mpr (outside unmarked index unwraps)

/-- A function whose doc comment mentions an attribute for tests. -/
def mentioningText : String :=
  "/// Runs like a `#[test]` does.\nfn f(a: Option<u8>) -> u8 \x7b\n    a.unwrap()\n\x7d\n"

/-- The library with that function. -/
def mentioningSource : Source :=
  .ofText "src/lib.rs" mentioningText.toList

theorem unmarked_reportsCall_iff_mentioningSource :
    (Settings.read []).2 = .ok Settings.standard ∧
      Settings.standard.isEnabled .unwrapInProduction = true ∧
      Settings.standard.allowUnwrap = false ∧
      isTestFile (decidingPath mentioningSource none) = false ∧
      allowsLint "unwrap_used" mentioningSource.lines = false ∧
      ((IsUnmarked mentioningSource.lines → ∀ index, Unwraps mentioningSource.lines index →
          ReportsCall Settings.standard mentioningSource none index) ↔
        (IsUnmarked mentioningSource.lines → ∀ index, Unwraps mentioningSource.lines index →
          ¬ IsInTest mentioningSource.lines index)) := by
  have enabled : Settings.standard.isEnabled .unwrapInProduction = true := by decide
  have production : isTestFile (decidingPath mentioningSource none) = false := by decide
  have strict : allowsLint "unwrap_used" mentioningSource.lines = false := by decide +kernel
  exact ⟨Settings.read_nil, enabled, rfl, production, strict,
    unmarked_reportsCall_iff Settings.read_nil enabled rfl production strict⟩

/-- Its one `.unwrap()` is not reported, though nothing exempts the file and no attribute stands
in its code. -/
theorem not_reportsCall_mentioningSource :
    Settings.standard.isEnabled .unwrapInProduction = true ∧
      Settings.standard.allowUnwrap = false ∧
      isTestFile (decidingPath mentioningSource none) = false ∧
      allowsLint "unwrap_used" mentioningSource.lines = false ∧
      IsUnmarked mentioningSource.lines ∧ Unwraps mentioningSource.lines 2 ∧
      ¬ ReportsCall Settings.standard mentioningSource none 2 := by
  have unmarked : IsUnmarked mentioningSource.lines := by
    rw [IsUnmarked]
    decide +kernel
  have unwraps : Unwraps mentioningSource.lines 2 :=
    ⟨"    a.unwrap()".toList, by decide, by decide +kernel⟩
  have missed : ¬ ReportsCall Settings.standard mentioningSource none 2 := by
    rw [ReportsCall]
    decide +kernel
  exact ⟨by decide, rfl, by decide, by decide +kernel, unmarked, unwraps, missed⟩

end Scan

end CrateAudit

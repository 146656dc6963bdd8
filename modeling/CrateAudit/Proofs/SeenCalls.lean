/-
This file says that an audit and a fix see the same calls. The audit asks where a call
starts in the line as it stands, the fix looks for the call in the code alone, and both
find it at the same offsets. So a call that is reported is one that the fix of its line
finds, and a line that is reported is a line of the file.
-/

import CrateAudit.Proofs.ReportedCalls

namespace CrateAudit

/-! ### Calls on one line -/

/-- What the rule for a call and a fix make of a line: the rule finds the call exactly if the code
of the line holds it, and the occurrences of the call that are code are those in the code. -/
structure Rule.AgreesOn (rule : Rule) (call line : Line) : Prop where
  found : (rule.regex.occursIn line = true ∧
      Rust.isInert line (rule.literal.getD "").toList = false) ↔
    Text.includes call (Rust.codeOnly line) = true
  places : (Text.occurrences call line).filter
      (fun offset => (Rust.lex line).contextAt offset = .code) =
    Text.occurrences call (Rust.codeOnly line)

/-- A rule for a text that nothing interrupts agrees with a search in the code. -/
theorem Rule.agreesOn_of_plain {rule : Rule} {text : String} (filled : text.toList ≠ [])
    (plain : ∀ before, Rust.IsPlainCode before text.toList)
    (regex : rule.regex = Regex.inOrder (Regex.parts text)) (literal : rule.literal = some text)
    (line : Line) : rule.AgreesOn text.toList line where
  found := by
    rw [regex, literal, Regex.occursIn_parts, Option.getD_some,
      ← Rust.includes_and_not_isInert filled plain, Bool.and_eq_true, Bool.not_eq_true']
  places := Rust.filter_occurrences_eq filled plain

/-! ### Calls that are reported -/

/-- A line with a call in its code has something to replace. -/
theorem Fix.propagateErrors_ne_noCall {line : Line} {exempt : Scan.Exemptions}
    (holds : Scan.HoldsCall exempt line) : propagateErrors line ≠ .skip .noCall := by
  have filled : callSpans? (Rust.codeOnly line) ≠ some [] := by
    rw [Ne, callSpans?_eq_some_nil]
    rintro ⟨noUnwrap, noExpect⟩
    rcases holds with ⟨_, unwrap⟩ | ⟨_, expect⟩
    · exact Text.includes_iff_occurrences_ne_nil.mp unwrap noUnwrap
    · exact Text.includes_iff_occurrences_ne_nil.mp expect noExpect
  rw [propagateErrors]
  split
  · exact fun same => absurd same (by decide)
  · rename_i none
    exact absurd none filled
  · exact Plan.noConfusion

namespace Scan

/-- The rules for calls agree with the fixes on every line. No call that a scan reports is skipped
for want of a call on its line or of the line. -/
theorem reported_calls_are_seen {table : Table} {settings : Settings}
    (readable : (Settings.read table).2 = .ok settings) (source : Source)
    (testPath : Option String) :
    (∀ line, Rule.unwrapCall.AgreesOn Fix.unwrapText line ∧
        Rule.expectCall.AgreesOn Fix.expectText line) ∧
      ∀ violation ∈ rustFile settings source testPath, violation.kind = .unwrapInProduction →
        Fix.plan source.lines violation ≠ .skip .noCall ∧
          Fix.plan source.lines violation ≠ .skip .outsideFile := by
  refine ⟨fun line => ⟨?_, ?_⟩, fun violation found kind => ?_⟩
  · exact Rule.agreesOn_of_plain (by decide) isPlainCode_unwrap rfl rfl line
  · exact Rule.agreesOn_of_plain (by decide) isPlainCode_expect rfl rfl line
  · have own := Settings.addsOwnKind_of_read readable
    obtain ⟨_, _, index, line, number, stands, _, holds⟩ :=
      exists_line_of_mem_rustFile own found kind
    rw [Fix.plan_of_line number stands, kind]
    simp only
    split
    · refine ⟨Fix.propagateErrors_ne_noCall holds, fun outside => ?_⟩
      rw [Fix.propagateErrors] at outside
      split at outside <;> cases outside
    · exact ⟨by decide, by decide⟩

/-- A function with a call in a text, one in code and one in a comment, all on one line. -/
def quotingText : String :=
  "fn f(a: Option<u8>) -> Option<u8> \x7b\n    log(\".unwrap()\"); a.unwrap(); // .unwrap()\n\x7d\n"

/-- The library with that function. -/
def quotingSource : Source :=
  .ofText "src/lib.rs" quotingText.toList

theorem reported_calls_are_seen_quotingSource :
    (Settings.read []).2 = .ok Settings.standard ∧
      ReportsCall Settings.standard quotingSource none 1 ∧
      (∀ line, Rule.unwrapCall.AgreesOn Fix.unwrapText line ∧
          Rule.expectCall.AgreesOn Fix.expectText line) ∧
      ∀ violation ∈ rustFile Settings.standard quotingSource none,
        violation.kind = .unwrapInProduction →
          Fix.plan quotingSource.lines violation ≠ .skip .noCall ∧
            Fix.plan quotingSource.lines violation ≠ .skip .outsideFile := by
  have reported : ReportsCall Settings.standard quotingSource none 1 := by
    rw [ReportsCall]
    decide +kernel
  exact ⟨Settings.read_nil, reported,
    reported_calls_are_seen Settings.read_nil quotingSource none⟩

end Scan

end CrateAudit

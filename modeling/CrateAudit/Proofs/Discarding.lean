/-
This file says that discarded values are fixed at once unless a fix makes one. A line
that discards a plain value is always reported, so after a repair no such line is left
as it was. What the repair itself has rewritten is the one place where a new one can
come from: a call that was replaced no longer looks as if it ran code.
-/

import CrateAudit.Proofs.Discards
import CrateAudit.Proofs.RepairedText
import CrateAudit.Proofs.ReportedCalls

namespace CrateAudit

/-- A pattern that matches at the start of a line occurs in it. -/
theorem Regex.occursIn_of_startsLine {regex : Regex} {line : Line}
    (starts : regex.startsLine line = true) : regex.occursIn line = true := by
  obtain ⟨found, matched⟩ := Option.isSome_iff_exists.mp starts
  rw [Regex.matchStart?, Place.start] at matched
  rw [Regex.occursIn, Regex.search?]
  cases line with
  | nil =>
    rw [Regex.searchFrom, matched]
    rfl
  | cons character rest =>
    rw [Regex.searchFrom, matched]
    rfl

/-- A discarded value can be fixed exactly where its line can be removed. -/
theorem Fix.isEditable_located {lines : List Line} {index : Nat} {line : Line}
    (stands : lines[index]? = some line) (file : String) :
    isEditable lines (Rule.underscoreBinding.located file index) =
      (removeDiscard line).isApplicable := by
  have place : (Rule.underscoreBinding.located file index).line = (index : Int) + 1 := rfl
  rw [isEditable, plan_of_line place stands]
  rfl

namespace Scan

/-! ### Discarded values are reported -/

theorem isPlainCode_let (before : Line) : Rust.IsPlainCode before "let".toList := by
  simp [Rust.IsPlainCode]

/-- The binding on a line that can be removed is found. -/
theorem checkLiteral_of_removeDiscard {line : Line}
    (removed : (Fix.removeDiscard line).isApplicable = true) (source : Source) (index : Nat) :
    checkLiteral Rule.underscoreBinding source index line =
      [Rule.underscoreBinding.located source.path index] := by
  obtain ⟨starts, value, found, _⟩ := Fix.value_of_removeDiscard removed
  obtain ⟨margin, gap, tail, shape, _⟩ := Fix.discard_shape found
  have inCode : Text.includes "let".toList (Rust.codeOnly line) = true := by
    rw [Text.includes_iff_isInfix, shape]
    exact ⟨margin, gap ++ (value ++ tail), by rw [List.append_assoc]⟩
  rw [← Rust.includes_and_not_isInert (by decide) isPlainCode_let, Bool.and_eq_true] at inCode
  have literal : (Rule.underscoreBinding.literal.getD "").toList = "let".toList := rfl
  rw [checkLiteral, literal, inCode.2, Regex.occursIn_of_startsLine starts]
  rfl

theorem located_mem_rustFile {settings : Settings} (checks : checksUnderscores settings = true)
    {source : Source} {index : Nat} {line : Line} (stands : source.lines[index]? = some line)
    (removed : (Fix.removeDiscard line).isApplicable = true) (testPath : Option String) :
    Rule.underscoreBinding.located source.path index ∈ rustFile settings source testPath := by
  refine mem_rustFile_of_checkLine stands fun inTest => ?_
  refine mem_checkLine.mpr (Or.inr (Or.inl ⟨checks, ?_⟩))
  rw [checkLiteral_of_removeDiscard removed]
  exact List.mem_singleton_self _

/-- Underscores are reported only where they are checked. -/
theorem checksUnderscores_of_mem_rustFile {settings : Settings} (own : settings.AddsOwnKind)
    {source : Source} {testPath : Option String} {violation : Violation}
    (found : violation ∈ rustFile settings source testPath)
    (kind : violation.kind = .underscoreBandaid) : checksUnderscores settings = true := by
  rcases mem_rustFile_iff.mp found with size | ⟨place, line, inTest, _, _, found⟩
  · exact absurd (kind.symm.trans (of_mem_checkFileSize size).2) (by decide)
  rcases mem_checkLine.mp found with
    ⟨_, functions⟩ | ⟨checks, _⟩ | ⟨_, calls⟩ | ⟨_, _, docs⟩ | length | custom
  · rw [checkFunction] at functions
    split at functions
    · cases functions
    · rcases List.mem_append.mp functions with size | parameters
      · split at size
        · rw [List.mem_singleton.mp size] at kind
          cases kind
        · cases size
      · exact (List.mem_ite_nil_right.mp parameters).1
  · exact checks
  · exact absurd (kind.symm.trans (of_mem_checkCalls calls).2) (by decide)
  · exact absurd (kind.symm.trans (of_mem_checkDocs docs).2) (by decide)
  · exact absurd (kind.symm.trans (of_mem_checkLineLength length).2) (by decide)
  · exact absurd (kind.symm.trans (kind_of_mem_checkCustomRules own custom)) (by decide)

end Scan

/-! ### After a repair -/

namespace Project

variable {settings : Settings} {path : String} {content : List Char}
  {testPath : Option String} {violations : List Violation}

/-- The source that a repaired file is read as. -/
def repairedSource (path : String) (content : List Char) (violations : List Violation) : Source :=
  .ofText path (repairedText (.ofText path content)
    (Fix.planFile (.ofText path content) violations).edits)

/-- The lines of a repaired file are those that the edits leave, but for an empty one. -/
theorem mem_lines_repairedSource (feeds : '\r' ∉ content) {line : Line} (filled : line ≠ []) :
    line ∈ (repairedSource path content violations).lines ↔
      line ∈ Fix.editedLines (Fix.planFile (.ofText path content) violations).edits
        (Text.lines content) := by
  rw [repairedSource, Source.lines_ofText, lines_repairedText path feeds]
  exact Text.mem_withoutOpenEnd filled

/-- A line that can be removed and was left was put there by an edit. -/
theorem exists_edit_of_removable (checks : Scan.checksUnderscores settings = true)
    (planned : ∀ violation, violation.kind = .underscoreBandaid →
      (violation ∈ violations ↔
        violation ∈ Scan.rustFile settings (.ofText path content) testPath))
    {line : Line} (removable : (Fix.removeDiscard line).isApplicable = true)
    (left : line ∈ Fix.editedLines (Fix.planFile (.ofText path content) violations).edits
      (Text.lines content)) :
    ∃ edit ∈ (Fix.planFile (.ofText path content) violations).edits,
      edit.replacement = some line := by
  obtain ⟨index, own, stands, ⟨unedited, rfl⟩ | ⟨edit, text, found, replaced, rfl⟩⟩ :=
    Fix.mem_editedFrom_iff.mp left
  · have reported : Rule.underscoreBinding.located path index ∈
        Scan.rustFile settings (.ofText path content) testPath :=
      Scan.located_mem_rustFile checks stands removable testPath
    have editable := (Fix.isEditable_located stands path).trans removable
    obtain ⟨edit, member, number, _⟩ :
        ∃ edit ∈ (Fix.planFile (.ofText path content) violations).edits,
          edit.line = (index : Int) + 1 ∧ edit.kind = .underscoreBandaid :=
      Fix.exists_edit_iff.mpr ⟨_, (planned _ rfl).mpr reported, rfl, rfl, editable⟩
    have named : edit.line = 1 + (index : Int) := number.trans (Int.add_comm _ _)
    exact absurd named (Fix.editOf?_eq_none.mp unedited edit member)
  · exact ⟨edit, List.mem_of_find?_eq_some found, replaced⟩

/-- After a repair that fixes underscores, no discarded value can be removed exactly if no edit put
one where a call was. -/
theorem discards_settled_iff (own : settings.AddsOwnKind) (feeds : '\r' ∉ content)
    (planned : ∀ violation, violation.kind = .underscoreBandaid →
      (violation ∈ violations ↔
        violation ∈ Scan.rustFile settings (.ofText path content) testPath)) :
    (∀ violation ∈ Scan.rustFile settings (repairedSource path content violations) testPath,
        violation.kind = .underscoreBandaid →
          Fix.isEditable (repairedSource path content violations).lines violation = false) ↔
      (Scan.checksUnderscores settings = true →
        ∀ edit ∈ (Fix.planFile (.ofText path content) violations).edits,
          ∀ text, edit.replacement = some text →
            (Fix.removeDiscard text).isApplicable = false) := by
  constructor
  · intro settled checks edit member text replaced
    refine Bool.not_eq_true _ |>.mp fun removable => ?_
    have filled : text ≠ [] := by
      rintro rfl
      exact absurd removable (by decide)
    have left := (mem_lines_repairedSource feeds filled).mpr
      (Fix.replacement_mem_editedLines member replaced)
    obtain ⟨index, stands⟩ := List.getElem?_of_mem left
    have reported := Scan.located_mem_rustFile checks stands removable testPath
    have unedited := settled _ reported rfl
    rw [Fix.isEditable_located stands, removable] at unedited
    cases unedited
  · intro plain violation found kind
    refine Bool.not_eq_true _ |>.mp fun editable => ?_
    obtain ⟨index, line, number, stands⟩ := Fix.line_of_isEditable editable
    rw [Fix.isEditable, Fix.plan_of_line number stands, kind] at editable
    simp only at editable
    have filled : line ≠ [] := by
      rintro rfl
      exact absurd editable (by decide)
    have checks := Scan.checksUnderscores_of_mem_rustFile own found kind
    obtain ⟨edit, member, replaced⟩ := exists_edit_of_removable checks planned editable
      ((mem_lines_repairedSource feeds filled).mp (List.mem_of_getElem? stands))
    rw [plain checks edit member line replaced] at editable
    cases editable

end Project

end CrateAudit

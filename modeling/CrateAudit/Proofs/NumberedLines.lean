/-
This file shows that a scan asks for no line that a file does not have, and for no group
that a match does not have: the scan that asks for them by their numbers has a result,
and it is the one of the scan that does not. Whatever is found lies on a line of the file.
-/

import CrateAudit.Proofs.Captures
import CrateAudit.Proofs.Findings
import CrateAudit.Proofs.LineWalk
import CrateAudit.Proofs.ReportOrder
import CrateAudit.Scan.Numbered

namespace CrateAudit.Scan

namespace Numbered

variable {lines : List Line} {start : Nat}

/-! ### Items -/

/-- The lines of a signature that are asked for one by one are those that follow its start. -/
theorem exists_signatureLines? (lines : List Line) (start : Nat) :
    ∃ last : Nat, signatureLines? lines start =
        some (Rust.signatureLines (lines.drop start), last) ∧
      min (last : Int) ((lines.length : Int) - 1) = (Rust.signatureAt lines start).braceIndex := by
  by_cases inside : start < lines.length
  · have shape := List.drop_eq_getElem_cons inside
    rw [signatureLines?, if_pos inside, List.getElem?_eq_getElem inside]
    simp only [bind, Option.bind]
    by_cases ends : Rust.endsSignature lines[start] = true
    · refine ⟨start, ?_, ?_⟩
      · rw [if_pos ends, shape, Rust.signatureLines, if_pos ends]
        rfl
      · rw [Rust.braceIndex_of_endsSignature inside ends]
        omega
    · obtain ⟨last, later, brace⟩ := exists_signatureLines? lines (start + 1)
      refine ⟨last, ?_, ?_⟩
      · rw [if_neg ends, later, shape, Rust.signatureLines, if_neg ends]
        rfl
      · rw [Rust.braceIndex_succ inside ends, brace]
  · have none : lines.drop start = [] := List.drop_eq_nil_iff.mpr (by omega)
    refine ⟨start, ?_, ?_⟩
    · rw [signatureLines?, if_neg inside, none]
      rfl
    · simp [Rust.signatureAt, none, Rust.signatureLines]
      omega
termination_by lines.length - start

theorem signature?_eq (lines : List Line) (start : Nat) :
    signature? lines start = some (Rust.signatureAt lines start) := by
  obtain ⟨last, own, brace⟩ := exists_signatureLines? lines start
  rw [signature?, own]
  simp only [Option.bind_eq_bind, Option.bind_some, Option.pure_def, brace]
  rfl

theorem itemEnd?_eq (inside : start < lines.length) :
    itemEnd? lines start = some (Rust.itemEnd lines start : Int) := by
  rw [itemEnd?, signature?_eq]
  exact Rust.blockEnd?_braceIndex inside

theorem function?_eq (lines : List Line) (start : Nat) :
    function? lines start = some (Rust.functionAt? lines start) := by
  rw [function?, Rust.functionAt?]
  split
  · rename_i inside
    rw [signature?_eq]
    simp only [bind, Option.bind]
    cases Rust.functionName? (Rust.signatureAt lines start).text with
    | none => rfl
    | some name =>
      rw [Rust.blockEnd?_braceIndex inside]
      rfl
  · rfl

/-! ### Tests -/

theorem stepModule?_eq (inside : start < lines.length) (scope : TestScope) (line : Line) :
    stepModule? scope lines start line = some (scope.stepModule lines start line) := by
  rw [stepModule?, TestScope.stepModule, itemEnd?_eq inside]
  simp only [Option.bind_eq_bind, Option.bind_some, Option.pure_def, itemLimit,
    Int.toNat_natCast, ← apply_ite some]

theorem stepFunction?_eq (inside : start < lines.length) (scope : TestScope) (line : Line) :
    stepFunction? scope lines start line = some (scope.stepFunction lines start line) := by
  rw [stepFunction?, TestScope.stepFunction, itemEnd?_eq inside]
  simp only [Option.bind_eq_bind, Option.bind_some, Option.pure_def, itemLimit,
    Int.toNat_natCast, ← apply_ite some]

theorem step?_eq (inside : start < lines.length) (scope : TestScope) (line : Line) :
    step? scope lines start line = some (scope.step lines start line) := by
  rw [step?, stepModule?_eq inside]
  exact stepFunction?_eq inside _ line

/-! ### Exemptions -/

theorem mapM_eq_filterMap {Item Result : Type} {step : Item → Option Result} {items : List Item}
    (each : ∀ item ∈ items, ∃ result, step item = some result) :
    items.mapM step = some (items.filterMap step) := by
  induction items with
  | nil => rfl
  | cons item rest inductionHypothesis =>
    rw [List.forall_mem_cons] at each
    obtain ⟨result, here⟩ := each.1
    rw [List.mapM_cons, here, inductionHypothesis each.2, List.filterMap_cons, here]
    rfl

theorem any_filterMap_group? (holds : Line → Bool) (index : Nat) (found : List Match) :
    (found.filterMap (·.group? index)).any holds =
      found.any fun found => (found.group? index).any holds := by
  induction found with
  | nil => rfl
  | cons first rest inductionHypothesis =>
    rw [List.filterMap_cons, List.any_cons, ← inductionHypothesis]
    cases first.group? index <;> rfl

theorem exemptions?_eq (settings : Settings) (testPath : String) (lines : List Line) :
    exemptions? settings testPath lines = some (exemptions settings testPath lines) := by
  have lists : lintLists? lines = some ((lines.flatMap fun line =>
      lintAttribute.matchesOf (Rust.codeOnly line)).filterMap (·.group? 2)) := by
    refine mapM_eq_filterMap fun found member => ?_
    obtain ⟨line, _, matched⟩ := List.mem_flatMap.mp member
    exact Regex.exists_group? (Regex.holds_of_mem_matchesFrom (by decide) matched)
  have allows (lint : String) : ((lines.flatMap fun line =>
      lintAttribute.matchesOf (Rust.codeOnly line)).filterMap (·.group? 2)).any
        (Text.includes lint.toList) = allowsLint lint lines := by
    rw [any_filterMap_group?, List.any_flatMap]
    rfl
  rw [exemptions?, lists, exemptions, ← allows, ← allows]
  rfl

/-! ### Checks -/

theorem parameterLine?_eq (name : Line) {count : Nat} (inside : start + count ≤ lines.length) :
    parameterLine? lines name start count =
      some (Scan.parameterLine? name (((lines.take (start + count)).zipIdx).drop start)) := by
  induction count generalizing start with
  | zero =>
    have none : ((lines.take (start + 0)).zipIdx).drop start = [] := by
      rw [List.drop_eq_nil_iff, List.length_zipIdx, List.length_take]
      omega
    rw [none]
    rfl
  | succ count inductionHypothesis =>
    have here : start < lines.length := by omega
    have short : start < ((lines.take (start + (count + 1))).zipIdx).length := by
      rw [List.length_zipIdx, List.length_take]
      omega
    have first : ((lines.take (start + (count + 1))).zipIdx)[start] = (lines[start], start) := by
      simp
    rw [parameterLine?, List.getElem?_eq_getElem here, List.drop_eq_getElem_cons short, first]
    simp only [bind, Option.bind, Scan.parameterLine?, List.find?_cons]
    cases (parameterNamed name).occursIn lines[start] && !Rust.isInert lines[start] name with
    | true => rfl
    | false =>
      rw [Nat.add_comm count 1, ← Nat.add_assoc]
      exact inductionHypothesis (by omega)

theorem checkUnderscoreParameter?_eq {source : Source} (inside : start < source.lines.length) :
    checkUnderscoreParameter? source start = some (checkUnderscoreParameter source start) := by
  have bounds := Rust.signatureAt_braceIndex inside
  rw [checkUnderscoreParameter?, checkUnderscoreParameter, signature?_eq]
  simp only [Option.bind_eq_bind, Option.bind_some]
  cases matched : Rule.underscoreParameterUse.regex.search?
      (Rust.signatureAt source.lines start).text with
  | none => rfl
  | some found =>
    obtain ⟨name, captured⟩ := Regex.exists_group?
      (Regex.holds_of_searchFrom (show Rule.underscoreParameterUse.regex.captures 1 by decide)
        matched)
    have last : start + ((Rust.signatureAt source.lines start).braceIndex + 1 - start).toNat =
        (Rust.signatureAt source.lines start).braceIndex.toNat + 1 := by omega
    simp only [Option.bind_some, captured, parameterLine?_eq name
      (show start + ((Rust.signatureAt source.lines start).braceIndex + 1 - start).toNat ≤
        source.lines.length by omega), last]
    generalize Scan.parameterLine? name _ = stands
    cases stands <;> rfl

theorem checkFunction?_eq {source : Source} (inside : start < source.lines.length)
    (settings : Settings) :
    checkFunction? settings source start = some (checkFunction settings source start) := by
  rw [checkFunction?, checkFunction, function?_eq, checkUnderscoreParameter?_eq inside]
  cases Rust.functionAt? source.lines start with
  | none => rfl
  | some function => cases checksUnderscores settings <;> rfl

theorem docsAbove?_eq (depth : Int) (inside : start ≤ lines.length) :
    docsAbove? lines depth start = some (docsAbove depth (lines.take start).reverse) := by
  induction start generalizing depth with
  | zero => rfl
  | succ previous inductionHypothesis =>
    have here : previous < lines.length := by omega
    have shape : (lines.take (previous + 1)).reverse =
        lines[previous] :: (lines.take previous).reverse := by
      rw [List.take_succ_eq_append_getElem here, List.reverse_append]
      rfl
    rw [docsAbove?, List.getElem?_eq_getElem here, shape, docsAbove]
    simp only [Option.bind_eq_bind, Option.bind_some, Option.pure_def,
      inductionHypothesis _ (Nat.le_of_lt here), ← apply_ite some]

theorem checkDocs?_eq {source : Source} {line : Line} (stands : source.lines[start]? = some line)
    (settings : Settings) :
    checkDocs? settings source start = some (checkDocs settings source start line) := by
  have inside := (List.getElem?_eq_some_iff.mp stands).1
  rw [checkDocs?, checkDocs, stands, docsAbove?_eq 0 (Nat.le_of_lt inside)]
  simp only [Option.bind_eq_bind, Option.bind_some, hasDocs]
  cases matched : publicItem.matchStart? line with
  | none => cases settings.isEnabled .missingDocs <;> rfl
  | some found =>
    obtain ⟨item, captured⟩ := Regex.exists_group?
      (Regex.holds_of_matchAt? (show publicItem.captures 4 by decide) matched)
    simp only [Option.bind_some, captured, Option.pure_def, ← apply_ite some]
    rfl

theorem checkLine?_eq {source : Source} {line : Line} (stands : source.lines[start]? = some line)
    (settings : Settings) (exempt : Exemptions) (inTest : Bool) :
    checkLine? settings exempt source inTest start line =
      some (checkLine settings exempt source inTest start line) := by
  have inside := (List.getElem?_eq_some_iff.mp stands).1
  rw [checkLine?, checkLine, checkFunction?_eq inside, checkDocs?_eq stands]
  cases definesFunction line <;> cases inTest <;> cases settings.requireDocumentation <;> rfl

theorem checkLinesFrom?_eq (settings : Settings) (exempt : Exemptions) {source : Source}
    (scope : TestScope) {rest : List Line} (left : source.lines.drop start = rest) :
    checkLinesFrom? settings exempt source scope start rest =
      some (checkLinesFrom settings exempt source scope start rest) := by
  induction rest generalizing scope start with
  | nil => rfl
  | cons line rest inductionHypothesis =>
    rw [checkLinesFrom?, checkLinesFrom, step?_eq (lt_of_drop left)]
    simp only [Option.bind_eq_bind, Option.bind_some, Option.pure_def,
      checkLine?_eq (getElem?_of_drop left), inductionHypothesis _ (drop_succ_of_drop left)]

/-- No line is asked for that a file does not have, and what is found is what a scan finds. -/
theorem rustFile?_eq (settings : Settings) (source : Source) (testPath : Option String) :
    rustFile? settings source testPath = some (rustFile settings source testPath) := by
  simp only [rustFile?, exemptions?_eq, checkLinesFrom?_eq _ _ _ List.drop_zero]
  rfl

end Numbered

/-! ### Where findings lie -/

/-- Whether findings stand in the order of their lines, those of one line in the order of their
kinds. -/
def AreInOrder (found : List Violation) : Prop :=
  found.Pairwise fun first second => first.line < second.line ∨
    (first.line = second.line ∧ first.kind.ordinal ≤ second.kind.ordinal)

theorem areInOrder_sortInFile (found : List Violation) :
    AreInOrder (Violation.sortInFile found) :=
  (Violation.pairwise_sortInFile found).imp Violation.atMostInFile_iff.mp

/-- A scan of any text comes to an end without asking for a line of the file or a character of a
line that is not there, and each of its findings, in order, is on a line of the file. Only a
manifest without lines has findings on no line. -/
theorem findings_lie_in_order (settings : Settings) (source : Source) :
    (∀ line, Rust.Walk.lex? line = some (Rust.lex line) ∧
      Rust.Walk.codeOnly? line = some (Rust.codeOnly line)) ∧
    (∀ testPath,
      Numbered.rustFile? settings source testPath = some (rustFile settings source testPath) ∧
      AreInOrder (rustFile settings source testPath) ∧
      ∀ violation ∈ rustFile settings source testPath,
        violation.file = source.path ∧
          1 ≤ violation.line ∧ violation.line ≤ source.lines.length) ∧
    AreInOrder (manifest settings source) ∧
    ∀ violation ∈ manifest settings source,
      violation.file = source.path ∧
        (1 ≤ violation.line ∧ violation.line ≤ source.lines.length ∨
          violation.line = 0 ∧ source.lines = []) := by
  refine ⟨fun line => ⟨Rust.Walk.lex?_eq line, Rust.Walk.codeOnly?_eq line⟩,
    fun testPath => ⟨Numbered.rustFile?_eq settings source testPath,
    areInOrder_sortInFile _, fun violation found => ?_⟩, areInOrder_sortInFile _,
    fun violation found => ?_⟩
  · exact Violation.liesIn_iff.mp (liesIn_of_mem_rustFile found)
  · rcases (of_mem_manifest found).1 with lies | ⟨file, line, none⟩
    · obtain ⟨file, first, last⟩ := Violation.liesIn_iff.mp lies
      exact ⟨file, Or.inl ⟨first, last⟩⟩
    · exact ⟨file, Or.inr ⟨line, none⟩⟩

end CrateAudit.Scan

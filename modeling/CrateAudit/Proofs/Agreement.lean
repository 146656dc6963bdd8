/-
This file says that what a check calls fixable is what a fix edits. The judgement of a
violation and the plan for it are made by different code; both come down to whether the
call can be replaced on its line or the line can be removed. The standard guidance
withholds neither.
-/

import CrateAudit.Guidance.Standard
import CrateAudit.Proofs.Discards
import CrateAudit.Proofs.Repairing

namespace CrateAudit

/-! ### The standard guidance -/

/-- Every kind has a suggestion and a priority in the standard guidance. -/
theorem Guidance.standard_total (kind : Kind) :
    (∃ suggestion, Guidance.standard.suggestion kind = .ok suggestion) ∧
      ∃ priority, Guidance.standard.priority kind = .ok priority := by
  cases kind <;> exact ⟨⟨_, rfl⟩, ⟨_, rfl⟩⟩

/-- The standard guidance grants every fix that there is. -/
theorem Guidance.standard_isAutoFixable {kind : Kind} (fixable : kind ∈ Fix.fixableKinds) :
    Guidance.standard.isAutoFixable kind = .ok true := by
  simp only [Fix.fixableKinds, List.mem_cons, List.not_mem_nil, or_false] at fixable
  rcases fixable with rfl | rfl <;> rfl

/-- Nothing is granted to the other kinds. -/
theorem Fix.Assessment.autoFixable_ofKind {kind : Kind} {function : Option Rust.FunctionSpan}
    {line : Option Line} (granted : (ofKind kind function line).autoFixable = true) :
    kind ∈ fixableKinds := by
  cases kind <;> first | decide | cases granted

/-- Nothing is granted where the line is not known. -/
theorem Fix.Assessment.autoFixable_ofKind_none (kind : Kind) :
    (ofKind kind none none).autoFixable = false := by
  cases kind <;> rfl

namespace Analysis

/-- The standard guidance answers for every violation, and grants what the judgement grants. -/
theorem ofViolation_standard (sources : List Source) (withContext : Bool)
    (violation : Violation) :
    ∃ analysis, ofViolation .standard sources withContext violation = .ok analysis ∧
      analysis.violation = violation ∧
      Guidance.standard.priority violation.kind = .ok analysis.priority ∧
      analysis.autoFixable = (assess violation (sourceOf? sources violation.file)).autoFixable := by
  obtain ⟨⟨suggestion, suggests⟩, priority, ranks⟩ := Guidance.standard_total violation.kind
  generalize judged : assess violation (sourceOf? sources violation.file) = assessment
  have grants (granted : assessment.autoFixable = true) :
      Guidance.standard.isAutoFixable violation.kind = .ok true := by
    refine Guidance.standard_isAutoFixable ?_
    rw [← judged, assess] at granted
    split at granted
    · exact Fix.Assessment.autoFixable_ofKind granted
    · simp only at granted
      split at granted <;> exact Fix.Assessment.autoFixable_ofKind granted
  rw [ofViolation, judged]
  simp only [bind, Except.bind]
  cases granted : assessment.autoFixable with
  | false =>
    cases assessment.suggestion <;> simp only [suggests, ranks, Bool.false_eq_true, if_false] <;>
      exact ⟨_, rfl, rfl, rfl, rfl⟩
  | true =>
    cases assessment.suggestion <;> simp only [suggests, ranks, grants granted, if_true] <;>
      exact ⟨_, rfl, rfl, rfl, rfl⟩

/-- The standard guidance answers for all violations, one after another. -/
theorem ofViolations_standard (sources : List Source) (withContext : Bool)
    (violations : List Violation) :
    ∃ analyses, ofViolations .standard sources withContext violations = .ok analyses ∧
      analyses.map (·.violation) = violations ∧
      ∀ analysis ∈ analyses,
        Guidance.standard.priority analysis.violation.kind = .ok analysis.priority ∧
        analysis.autoFixable =
          (assess analysis.violation (sourceOf? sources analysis.violation.file)).autoFixable := by
  induction violations with
  | nil => exact ⟨[], rfl, rfl, fun _ member => absurd member List.not_mem_nil⟩
  | cons violation rest inductionHypothesis =>
    obtain ⟨analysis, done, own, granted⟩ := ofViolation_standard sources withContext violation
    obtain ⟨analyses, doneRest, ownRest, grantedRest⟩ := inductionHypothesis
    rw [ofViolations] at doneRest ⊢
    rw [List.mapM_cons, done]
    simp only [bind, Except.bind, doneRest]
    refine ⟨analysis :: analyses, rfl, by rw [List.map_cons, own, ownRest], ?_⟩
    intro other member
    rcases List.mem_cons.mp member with rfl | later
    · rw [own]
      exact granted
    · exact grantedRest other later

/-- On a line of the file the judgement of a kind grants exactly what can be edited. -/
theorem autoFixable_ofKind_line {lines : List Line} {violation : Violation} {index : Nat}
    {line : Line} (place : violation.line = (index : Int) + 1) (found : lines[index]? = some line) :
    (Fix.Assessment.ofKind violation.kind
        (if violation.kind = .unwrapInProduction then Fix.enclosingFunction? lines index else none)
        (some line)).autoFixable = Fix.isEditable lines violation := by
  rw [Fix.isEditable, Fix.plan_of_line place found]
  cases violation.kind with
  | unwrapInProduction =>
    simp only [if_true, Fix.Assessment.ofKind, Fix.Assessment.ofUnwrap]
    cases Fix.enclosingFunction? lines index with
    | none => rfl
    | some function =>
      by_cases propagates : function.canPropagate = true
      · simp only [Option.filter_some, propagates, if_true, Option.all_some, Option.any_some]
        split <;> rfl
      · simp only [Option.filter_some, propagates, if_false, Option.any_some, Bool.false_eq_true]
        rfl
  | underscoreBandaid =>
    simp only [Fix.Assessment.ofKind, Fix.Assessment.ofUnderscore, Option.any_some]
    cases removed : (Fix.removeDiscard line).isApplicable with
    | true => rfl
    | false =>
      simp only [Bool.false_eq_true, if_false]
      split <;> rfl
  | _ => rfl

/-- The judgement grants a fix exactly where a line can be edited. -/
theorem autoFixable_assess {violation : Violation} {source : Source}
    (manifest : source.isManifest = true → violation.kind ∉ Fix.fixableKinds) :
    (assess violation (some source)).autoFixable = Fix.isEditable source.lines violation := by
  rw [assess]
  by_cases isManifest : source.isManifest = true
  · simp only [Option.filter_some, isManifest, Bool.not_true, Bool.false_and,
      Bool.false_eq_true, if_false]
    rw [Fix.isEditable_of_not_fixable (manifest isManifest),
      Fix.Assessment.autoFixable_ofKind_none]
  by_cases positive : 1 ≤ violation.line
  · have place : violation.line = ((violation.line - 1).toNat : Int) + 1 := by omega
    simp only [Option.filter_some, isManifest, Bool.not_false, Bool.true_and, positive,
      decide_true, if_true]
    cases found : source.lines[(violation.line - 1).toNat]? with
    | none =>
      have outside : Fix.isEditable source.lines violation = false := by
        refine Fix.isEditable_of_no_line fun index line place' found' => ?_
        rw [show index = (violation.line - 1).toNat by omega, found] at found'
        cases found'
      simp only
      rw [outside, Fix.Assessment.autoFixable_ofKind_none]
    | some line => exact autoFixable_ofKind_line place found
  · have outside : Fix.isEditable source.lines violation = false :=
      Fix.isEditable_of_no_line fun index line place _ => by omega
    simp only [Option.filter_some, positive, decide_false, Bool.and_false, Bool.false_eq_true,
      if_false]
    rw [outside, Fix.Assessment.autoFixable_ofKind_none]

end Analysis

/-! ### Checks and fixes -/

namespace Project

/-- The edits planned for a file are those of its violations that can be edited away. -/
theorem exists_plannedEdit_iff {audit : Audit} {violations : List Violation} {file : String}
    {source : Source} (kept : Analysis.sourceOf? audit.sources file = some source)
    {number : Int} {kind : Kind} :
    (∃ edit ∈ plannedEdits audit violations file, edit.line = number ∧ edit.kind = kind) ↔
      ∃ violation ∈ violations, violation.file = file ∧ violation.line = number ∧
        violation.kind = kind ∧ Fix.isEditable source.lines violation = true := by
  have planned : plannedEdits audit violations file =
      (Fix.planFile source (violations.filter (·.file == file))).edits := by
    rw [plannedEdits, kept]
  rw [planned, Fix.exists_edit_iff]
  simp only [List.mem_filter, beq_iff_eq, and_assoc]

/-- For every violation that a check reports, a dry run plans an edit of its line for its kind
exactly if the check calls it fixable. -/
theorem autoFixable_iff_planned (settings : Settings) (disk : Disk) (target : String)
    (withContext : Bool) :
    let audit := (Project.audit settings disk target).2
    let fix := (repair settings disk target ⟨[], [], true⟩).repair
    ∃ analyses,
      Analysis.ofViolations .standard audit.sources withContext audit.violations = .ok analyses ∧
        analyses.map (·.violation) = audit.violations ∧
        ∀ analysis ∈ analyses, (analysis.autoFixable = true ↔
          ∃ edit ∈ fix.edits, edit.file = analysis.violation.file ∧
            edit.line = analysis.violation.line ∧ edit.kind = analysis.violation.kind) := by
  intro audit fix
  obtain ⟨analyses, done, own, granted⟩ :=
    Analysis.ofViolations_standard audit.sources withContext audit.violations
  refine ⟨analyses, done, own, fun analysis member => ?_⟩
  have reported : analysis.violation ∈ audit.violations :=
    own ▸ List.mem_map_of_mem member
  obtain ⟨source, kept⟩ := exists_source_of_mem_violations reported
  rw [(granted analysis member).2, kept, Analysis.autoFixable_assess]
  · generalize analysis.violation = violation at reported kept
    have planned : fix.edits = (filesToRepair (chosenViolations settings disk target
        ⟨[], [], true⟩)).flatMap (plannedEdits audit
          (chosenViolations settings disk target ⟨[], [], true⟩)) :=
      edits_repair_of_dryRun settings disk target rfl
    rw [planned]
    constructor
    · intro editable
      have chosen : violation ∈ chosenViolations settings disk target ⟨[], [], true⟩ := by
        rw [mem_chosenViolations]
        refine ⟨reported, ?_⟩
        rcases Fix.kind_of_isEditable editable with kind | kind <;> rw [kind] <;> decide
      obtain ⟨edit, inside, line, kind⟩ := (exists_plannedEdit_iff kept).mpr
        ⟨violation, chosen, rfl, rfl, rfl, editable⟩
      exact ⟨edit, List.mem_flatMap.mpr ⟨violation.file,
        mem_filesToRepair.mpr ⟨violation, chosen, rfl⟩, inside⟩,
        file_of_mem_plannedEdits inside, line, kind⟩
    · rintro ⟨edit, inside, file, line, kind⟩
      obtain ⟨other, _, inside⟩ := List.mem_flatMap.mp inside
      have same : other = violation.file := (file_of_mem_plannedEdits inside).symm.trans file
      rw [same] at inside
      obtain ⟨_, _, _, sameLine, sameKind, editable⟩ := (exists_plannedEdit_iff kept).mp
        ⟨edit, inside, line, kind⟩
      rw [← Fix.isEditable_congr sameLine sameKind]
      exact editable
  · intro manifest
    rcases kind_of_isManifest reported kept manifest with kind | kind <;> rw [kind] <;> decide

end Project

end CrateAudit

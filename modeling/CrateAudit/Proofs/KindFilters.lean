/-
This file says that a choice of kinds only filters what a dry run reports. A line that
is removed for its underscore has no call in code, so no call is reported on it, and
underscores come before calls in a report; so the fix of one kind never takes a line
from another. What cannot be fixed is another matter: planned along with the rest, it
can meet a line that a fix has taken.
-/

import CrateAudit.Proofs.Discards
import CrateAudit.Proofs.Merging
import CrateAudit.Proofs.Outcomes
import CrateAudit.Proofs.ReportedCalls
import CrateAudit.Proofs.SharedLines
import Mathlib.Data.List.Basic

namespace CrateAudit

/-! ### Reported lines -/

namespace Scan

/-- A call in code has a parenthesis. -/
theorem parenthesis_mem_of_holdsCall {exempt : Exemptions} {line : Line}
    (holds : HoldsCall exempt line) : '(' ∈ Rust.codeOnly line := by
  rcases holds with ⟨_, unwrap⟩ | ⟨_, expect⟩
  · exact Text.mem_of_includes unwrap (by decide)
  · exact Text.mem_of_includes expect (by decide)

end Scan

namespace Project

variable {settings : Settings} {source : Source} {testPath : Option String}

/-- Calls that are reported for a source are reported for a Rust file. -/
theorem mem_rustFile_of_mem_scanSource {violation : Violation}
    (found : violation ∈ scanSource settings source testPath)
    (kind : violation.kind = .unwrapInProduction) :
    violation ∈ Scan.rustFile settings source testPath := by
  rw [scanSource] at found
  split at found
  · rcases (Scan.of_mem_manifest found).2 with other | other <;>
      exact absurd (kind.symm.trans other) (by decide)
  · exact found

/-- What a scan reports keeps off the lines edited for what comes before it in a report. -/
theorem keepsOff_of_mem_scanSource (own : settings.AddsOwnKind) {first second : Violation}
    (found : second ∈ scanSource settings source testPath)
    (atMost : first.atMostInFile second = true) : Fix.KeepsOff source.lines first second := by
  intro editable sameLine fixable
  have order : first.kind.ordinal ≤ second.kind.ordinal := by
    rcases Violation.atMostInFile_iff.mp atMost with above | ⟨_, order⟩
    · omega
    · exact order
  have kind' : second.kind = .unwrapInProduction ∨ second.kind = .underscoreBandaid := by
    simpa [Fix.fixableKinds] using fixable
  rcases Fix.kind_of_isEditable editable with kind | kind <;>
    rcases kind' with kind' | kind' <;> rw [kind, kind']
  · rw [kind, kind'] at order
    exact absurd order (by decide)
  · -- the line is removed, so its code has no parenthesis and no call
    obtain ⟨_, _, index, line, number, stands, _, holds⟩ :=
      Scan.exists_line_of_mem_rustFile own (mem_rustFile_of_mem_scanSource found kind') kind'
    rw [Fix.isEditable, Fix.plan_of_line (sameLine.trans number) stands, kind] at editable
    exact absurd (Scan.parenthesis_mem_of_holdsCall holds)
      (Fix.parenthesis_not_mem_of_removeDiscard editable)

/-- What a scan reports keeps off each other's lines. -/
theorem keepsOff_scanSource (own : settings.AddsOwnKind) (source : Source)
    (testPath : Option String) :
    (scanSource settings source testPath).Pairwise (Fix.KeepsOff source.lines) :=
  (pairwise_scanSource settings source testPath).imp_of_mem fun _ found atMost =>
    keepsOff_of_mem_scanSource own found atMost

/-! ### Audits -/

variable {disk : Disk} {target : String}

/-- What an audit reports for a file keeps off each other's lines. -/
theorem keepsOff_audit (own : settings.AddsOwnKind) (sound : disk.isSound = true)
    {file : String}
    (kept : Analysis.sourceOf? (Project.audit settings disk target).2.sources file =
      some source) :
    ((Project.audit settings disk target).2.violations.filter (·.file == file)).Pairwise
      (Fix.KeepsOff source.lines) := by
  have ordered : (Project.audit settings disk target).2.violations.Pairwise
      fun first second => first.atMost second = true := Violation.pairwise_merge _
  refine (ordered.filter _).imp_of_mem fun {first second} member member' atMost => ?_
  rw [List.mem_filter, beq_iff_eq] at member member'
  obtain ⟨scan, scanned, found, shown⟩ := exists_scan_of_mem_violations member'.1
  obtain ⟨inside, path⟩ := Analysis.sourceOf?_eq_some kept
  rw [audit_eq, Audit.mem_sources_ofScans] at inside
  obtain ⟨scan', scanned', _, rfl⟩ := inside
  have same : scan' = scan := scan_eq_of_path sound scanned' scanned
    (path.trans (member'.2.symm.trans shown))
  obtain ⟨place, bytes, _, _, violations⟩ := (mem_scansAt_iff sound).mp scanned
  rw [violations] at found
  rw [same]
  rcases Violation.atMost_iff.mp atMost with above | ⟨_, inFile⟩
  · rw [member.2, member'.2] at above
    exact absurd above (lt_irrefl _)
  · exact keepsOff_of_mem_scanSource own found inFile

/-! ### Choices of kinds -/

/-- What is planned in a file for some kinds that can be fixed is the part about these kinds of what
is planned for all that is found. -/
theorem planned_filter (own : settings.AddsOwnKind) (sound : disk.isSound = true)
    {keeps : Kind → Bool} (fixable : ∀ kind, keeps kind = true → kind ∈ Fix.fixableKinds)
    (file : String) :
    let audit := (Project.audit settings disk target).2
    let chosen := audit.violations.filter fun violation => keeps violation.kind
    plannedEdits audit chosen file =
        (plannedEdits audit audit.violations file).filter (fun edit => keeps edit.kind) ∧
      plannedSkips audit chosen file =
        (plannedSkips audit audit.violations file).filter
          fun skipped => keeps skipped.violation.kind := by
  intro audit chosen
  rw [plannedEdits, plannedEdits, plannedSkips, plannedSkips]
  cases kept : Analysis.sourceOf? audit.sources file with
  | none => exact ⟨rfl, rfl⟩
  | some source =>
    have inFile : chosen.filter (·.file == file) =
        (audit.violations.filter (·.file == file)).filter
          fun violation => keeps violation.kind := by
      rw [List.filter_filter, List.filter_filter]
      simp only [Bool.and_comm]
    simp only
    rw [inFile, Fix.planFile_filter (keepsOff_audit own sound kept) fixable]
    exact ⟨rfl, rfl⟩

theorem pairwise_filesToRepair (violations : List Violation) :
    (filesToRepair violations).Pairwise (· ≤ ·) :=
  pairwise_mergeSort_name id (Summary.filesOf violations)

/-- The files of some violations are among those of all of them, in the same order. -/
theorem filesToRepair_filter (violations : List Violation) (keeps : Violation → Bool) :
    filesToRepair (violations.filter keeps) =
      (filesToRepair violations).filter (· ∈ filesToRepair (violations.filter keeps)) := by
  refine List.Perm.eq_of_pairwise (fun _ _ _ _ => le_antisymm) (pairwise_filesToRepair _)
    ((pairwise_filesToRepair violations).filter _) ?_
  refine (List.perm_ext_iff_of_nodup (nodup_filesToRepair _)
    ((nodup_filesToRepair violations).filter _)).mpr fun file => ?_
  rw [List.mem_filter, decide_eq_true_eq]
  refine (and_iff_right_of_imp fun member => ?_).symm
  obtain ⟨violation, kept, named⟩ := mem_filesToRepair.mp member
  exact mem_filesToRepair.mpr ⟨violation, (List.mem_filter.mp kept).1, named⟩

/-- Files without any of the chosen violations add nothing. -/
theorem flatMap_filesToRepair_filter {Outcome : Type} {outcomes : String → List Outcome}
    {violations : List Violation} {keeps : Violation → Bool}
    (quiet : ∀ file, (∀ violation ∈ violations.filter keeps, violation.file ≠ file) →
      outcomes file = []) :
    (filesToRepair (violations.filter keeps)).flatMap outcomes =
      (filesToRepair violations).flatMap outcomes := by
  rw [filesToRepair_filter]
  have silent : ∀ file, file ∉ filesToRepair (violations.filter keeps) → outcomes file = [] :=
    fun file absent => quiet file fun violation member named =>
      absent (mem_filesToRepair.mpr ⟨violation, member, named⟩)
  generalize filesToRepair (violations.filter keeps) = chosen at silent ⊢
  induction filesToRepair violations with
  | nil => rfl
  | cons file rest inductionHypothesis =>
    rw [List.filter_cons]
    split
    · rw [List.flatMap_cons, List.flatMap_cons, inductionHypothesis]
    · rename_i absent
      rw [List.flatMap_cons, silent file (by simpa using absent), List.nil_append,
        inductionHypothesis]

/-- Nothing is planned for a file without violations. -/
theorem planned_eq_nil {audit : Audit} {violations : List Violation} {file : String}
    (quiet : ∀ violation ∈ violations, violation.file ≠ file) :
    plannedEdits audit violations file = [] ∧ plannedSkips audit violations file = [] := by
  have none : violations.filter (·.file == file) = [] :=
    List.filter_eq_nil_iff.mpr fun violation member => by simpa using quiet violation member
  rw [plannedEdits, plannedSkips, none]
  cases Analysis.sourceOf? audit.sources file <;> exact ⟨rfl, rfl⟩

/-- What a dry run reports is, of what is planned for all that an audit finds, the part that is
about the kinds to fix. -/
theorem report_of_dryRun (own : settings.AddsOwnKind) (sound : disk.isSound = true)
    {options : RepairOptions} (dry : options.dryRun = true) :
    let audit := (Project.audit settings disk target).2
    let files := filesToRepair audit.violations
    let report := (repair settings disk target options).repair
    report.edits = (files.flatMap (plannedEdits audit audit.violations)).filter
        (fun edit => options.kinds.contains edit.kind) ∧
      report.skipped = (files.flatMap (plannedSkips audit audit.violations)).filter
        fun skipped => options.kinds.contains skipped.violation.kind := by
  intro audit files report
  have fixable : ∀ kind, options.kinds.contains kind = true → kind ∈ Fix.fixableKinds :=
    fun kind kept => (List.mem_filter.mp (List.contains_iff_mem.mp kept)).1
  have chosen : chosenViolations settings disk target options =
      audit.violations.filter fun violation => options.kinds.contains violation.kind := rfl
  have edits : report.edits = _ := edits_repair_of_dryRun settings disk target dry
  have skipped : report.skipped = _ := skipped_repair settings disk target options
  rw [chosen, flatMap_filesToRepair_filter fun file quiet => (planned_eq_nil quiet).1] at edits
  rw [chosen, flatMap_filesToRepair_filter fun file quiet => (planned_eq_nil quiet).2] at skipped
  rw [edits, skipped, List.filter_flatMap, List.filter_flatMap]
  exact ⟨List.flatMap_congr fun file _ => (planned_filter own sound fixable file).1,
    List.flatMap_congr fun file _ => (planned_filter own sound fixable file).2⟩

/-- The kinds to fix are those with a fix that are asked for and not left out. -/
theorem contains_kinds (only skip : List Kind) (dryRun : Bool) (kind : Kind) :
    (RepairOptions.mk only skip dryRun).kinds.contains kind =
      (decide ((only = [] ∨ kind ∈ only) ∧ kind ∉ skip) && Fix.fixableKinds.contains kind) := by
  rw [Bool.eq_iff_iff]
  simp [RepairOptions.kinds, and_comm]

/-- A violation that can be fixed is never left alone because its line was taken. -/
theorem reason_ne_lineShared (own : settings.AddsOwnKind) (sound : disk.isSound = true)
    {file : String} {skipped : Fix.Skipped}
    (member : skipped ∈ plannedSkips (Project.audit settings disk target).2
      (Project.audit settings disk target).2.violations file)
    (fixable : skipped.violation.kind ∈ Fix.fixableKinds) :
    skipped.reason ≠ Fix.SkipReason.lineShared.message := by
  rw [plannedSkips] at member
  split at member
  · cases member
  · rename_i source kept
    exact Fix.reason_ne_lineShared_of_keepsOff (keepsOff_audit own sound kept) member fixable

/-- A choice of kinds, by those asked for and those left out, only filters what a dry run reports.
In no report a violation is left alone because its line was taken, and in the plan for all that a
scan finds none that can be fixed. -/
theorem report_of_kinds {table : Table} (readable : (Settings.read table).2 = .ok settings)
    (sound : disk.isSound = true) (only skip : List Kind) :
    let whole := (repair settings disk target ⟨[], [], true⟩).repair
    let part := (repair settings disk target ⟨only, skip, true⟩).repair
    part.edits = whole.edits.filter
        (fun edit => (only = [] ∨ edit.kind ∈ only) ∧ edit.kind ∉ skip) ∧
      part.skipped = whole.skipped.filter
        (fun skipped => (only = [] ∨ skipped.violation.kind ∈ only) ∧
          skipped.violation.kind ∉ skip) ∧
      (∀ skipped ∈ whole.skipped, skipped.reason ≠ Fix.SkipReason.lineShared.message) ∧
      ∀ source testPath,
        ∀ skipped ∈ (Fix.planFile source (scanSource settings source testPath)).skipped,
          skipped.violation.kind ∈ Fix.fixableKinds →
            skipped.reason ≠ Fix.SkipReason.lineShared.message := by
  intro whole part
  have own := Settings.addsOwnKind_of_read readable
  have all : ∀ kind, (RepairOptions.mk [] [] true).kinds.contains kind =
      Fix.fixableKinds.contains kind := fun kind => by
    rw [contains_kinds]
    simp
  have isDry (only skip : List Kind) : (RepairOptions.mk only skip true).dryRun = true := rfl
  obtain ⟨wholeEdits, wholeSkipped⟩ : whole.edits = _ ∧ whole.skipped = _ :=
    report_of_dryRun own sound (isDry [] [])
  obtain ⟨partEdits, partSkipped⟩ : part.edits = _ ∧ part.skipped = _ :=
    report_of_dryRun own sound (isDry only skip)
  simp only [all] at wholeEdits wholeSkipped
  simp only [contains_kinds] at partEdits partSkipped
  refine ⟨?_, ?_, fun skipped member => ?_, fun source testPath skipped member fixable => ?_⟩
  · rw [wholeEdits, partEdits, List.filter_filter]
  · rw [wholeSkipped, partSkipped, List.filter_filter]
  · rw [wholeSkipped, List.mem_filter, List.contains_iff_mem, List.mem_flatMap] at member
    obtain ⟨⟨file, _, inside⟩, fixable⟩ := member
    exact reason_ne_lineShared own sound inside fixable
  · exact Fix.reason_ne_lineShared_of_keepsOff (keepsOff_scanSource own source testPath) member
      fixable

/-- A library with a binding that can be removed and a call that can be replaced. -/
def mixedText : String :=
  "fn f(a: Option<u8>) -> Option<u8> \x7b\n    let _ = 1;\n    Some(a.unwrap())\n\x7d\n"

theorem report_of_kinds_mixedText :
    let disk := Disk.withLibrary mixedText
    let whole := (repair .standard disk "." ⟨[], [], true⟩).repair
    let part := (repair .standard disk "." ⟨[.underscoreBandaid], [], true⟩).repair
    (Settings.read []).2 = .ok Settings.standard ∧ disk.isSound = true ∧
      part.edits = whole.edits.filter (fun edit =>
        ([Kind.underscoreBandaid] = [] ∨ edit.kind ∈ [Kind.underscoreBandaid]) ∧
          edit.kind ∉ []) ∧
      part.skipped = whole.skipped.filter (fun skipped =>
        ([Kind.underscoreBandaid] = [] ∨ skipped.violation.kind ∈ [Kind.underscoreBandaid]) ∧
          skipped.violation.kind ∉ []) ∧
      (∀ skipped ∈ whole.skipped, skipped.reason ≠ Fix.SkipReason.lineShared.message) ∧
      ∀ source testPath,
        ∀ skipped ∈ (Fix.planFile source (scanSource .standard source testPath)).skipped,
          skipped.violation.kind ∈ Fix.fixableKinds →
            skipped.reason ≠ Fix.SkipReason.lineShared.message := by
  intro disk whole part
  have sound : disk.isSound = true := by decide
  exact ⟨Settings.read_nil, sound,
    report_of_kinds Settings.read_nil sound [.underscoreBandaid] []⟩

/-- A public function without a doc comment that holds a call, all on one line. -/
def undocumentedText : String :=
  "pub fn f(a: Option<u8>) -> Option<u8> \x7b Some(a.unwrap()) \x7d\n"

/-- What is found in it: the call and the missing comment. -/
def undocumentedViolations : List Violation :=
  [Rule.unwrapCall.located "src/lib.rs" 0,
    ⟨.missingDocs, "src/lib.rs", 1, "Public fn is missing a /// doc comment", .warning⟩]

theorem scan_undocumentedText :
    scanSource .standard (librarySource undocumentedText) none = undocumentedViolations := by
  have notManifest : (librarySource undocumentedText).isManifest = false := by decide
  rw [scanSource, notManifest, if_neg Bool.false_ne_true]
  exact Scan.rustFile_eq_of_pairwise (by decide +kernel) (by decide)

/-- The missing comment lies on the line that the fix of the call takes. Planned with all else that
is found, it is left alone for that. -/
theorem lineShared_undocumentedText :
    let source := librarySource undocumentedText
    ∃ skipped ∈ (Fix.planFile source (scanSource .standard source none)).skipped,
      skipped.violation.kind = .missingDocs ∧
        skipped.reason = Fix.SkipReason.lineShared.message := by
  intro source
  rw [scan_undocumentedText]
  decide +kernel

end Project

end CrateAudit

/-
This file says that the totals of an audit agree with the files that were read. The
files with violations are those whose scans found something, no more than were read;
the source that is kept for each of them has the lines that its violations name; and a
repair asks for no source that is not kept.
-/

import CrateAudit.Proofs.AuditedFiles
import CrateAudit.Proofs.PooledAudit

namespace CrateAudit

/-! ### What scans add up to -/

namespace Audit

variable {scans : List FileScan} {root : String}

theorem length_sources_ofScans (root : String) (scans : List FileScan) :
    (ofScans root scans).sources.length = scans.countP fun scan => !scan.violations.isEmpty := by
  rw [ofScans, List.length_map, List.countP_eq_length_filter]

theorem nodup_sources_ofScans (distinct : HaveDistinctPaths scans) :
    ((ofScans root scans).sources.map (·.path)).Nodup := by
  rw [ofScans, List.map_map, List.Nodup, List.pairwise_map]
  exact distinct.filter _

/-- The files that violations name are those whose sources are kept. -/
theorem perm_filesOf_ofScans (ordered : ∀ scan ∈ scans, scan.IsOrdered)
    (distinct : HaveDistinctPaths scans) :
    (Summary.filesOf (ofScans root scans).violations).Perm
      ((ofScans root scans).sources.map (·.path)) := by
  refine (List.perm_ext_iff_of_nodup (Summary.nodup_filesOf _)
    (nodup_sources_ofScans distinct)).mpr fun file => ?_
  simp only [Summary.mem_filesOf, List.mem_map, mem_violations_ofScans, mem_sources_ofScans]
  constructor
  · rintro ⟨violation, ⟨scan, member, found⟩, rfl⟩
    exact ⟨scan.source, ⟨scan, member, List.ne_nil_of_mem found, rfl⟩,
      ((ordered scan member).named violation found).symm⟩
  · rintro ⟨_, ⟨scan, member, some, rfl⟩, rfl⟩
    obtain ⟨violation, found⟩ := List.exists_mem_of_ne_nil _ some
    exact ⟨violation, ⟨scan, member, found⟩, (ordered scan member).named violation found⟩

theorem filesWithViolations_ofScans (ordered : ∀ scan ∈ scans, scan.IsOrdered)
    (distinct : HaveDistinctPaths scans) :
    (ofScans root scans).summary.filesWithViolations =
      ((scans.countP fun scan => !scan.violations.isEmpty : Nat) : Int) := by
  have files := (@perm_filesOf_ofScans _ root ordered distinct).length_eq
  rw [List.length_map, length_sources_ofScans] at files
  exact congrArg Nat.cast files

/-- The source that is kept for the file of a violation is the one that it was found in. -/
theorem exists_scan_ofScans (ordered : ∀ scan ∈ scans, scan.IsOrdered)
    (distinct : HaveDistinctPaths scans) {violation : Violation}
    (found : violation ∈ (ofScans root scans).violations) :
    ∃ scan ∈ scans, violation ∈ scan.violations ∧
      Analysis.sourceOf? (ofScans root scans).sources violation.file = some scan.source := by
  obtain ⟨scan, member, inside⟩ := mem_violations_ofScans.mp found
  refine ⟨scan, member, inside, ?_⟩
  have file := (ordered scan member).named violation inside
  have kept : (Analysis.sourceOf? (ofScans root scans).sources violation.file).isSome := by
    rw [Analysis.sourceOf?, List.find?_isSome]
    exact ⟨scan.source, mem_sources_ofScans.mpr ⟨scan, member, List.ne_nil_of_mem inside, rfl⟩,
      by rw [file, beq_self_eq_true]⟩
  obtain ⟨source, kept⟩ := Option.isSome_iff_exists.mp kept
  obtain ⟨own, path⟩ := Analysis.sourceOf?_eq_some kept
  obtain ⟨scan', member', _, rfl⟩ := mem_sources_ofScans.mp own
  rw [kept, distinct.eq_of_path member' member (path.trans file)]

end Audit

/-- There is a share of files without violations unless there are no files. -/
theorem Summary.percentage_of_le {files filesWithViolations : Int} (some : 0 ≤ files)
    (few : filesWithViolations ≤ files) :
    percentage files filesWithViolations =
      if files = 0 then .zero
      else (Binary64.ofQuotient (files - filesWithViolations) files.toNat).hundredfold := by
  rw [percentage]
  by_cases none : files = 0
  · rw [if_pos none, if_pos]
    simp [none]
  · rw [if_neg none, if_neg]
    simp only [Bool.or_eq_true, decide_eq_true_eq, not_or]
    omega

namespace Project

variable {settings : Settings} {disk : Disk} {target : String} {audit : Audit}

/-- Whether a file could be read and its scan found something. -/
def hasFindings (settings : Settings) (disk : Disk) (root path : Path) : Bool :=
  (scanFile settings disk root path).toOption.any fun scan => !scan.violations.isEmpty

theorem length_scansAt (settings : Settings) (disk : Disk) (target : String) :
    (scansAt settings disk target).length =
      (discover disk (disk.resolve (.ofText target)) settings.excludedDirectories).countP
        fun path => (disk.readText path).isOk := by
  rw [scansAt, scansOf_scanFiles, List.length_filterMap_eq_countP]
  refine List.countP_congr fun path _ => ?_
  rw [scanFile]
  cases disk.readText path with
  | error fault => rfl
  | ok content => rfl

theorem countP_scansAt (settings : Settings) (disk : Disk) (target : String) :
    ((scansAt settings disk target).countP fun scan => !scan.violations.isEmpty) =
      (discover disk (disk.resolve (.ofText target)) settings.excludedDirectories).countP
        (hasFindings settings disk (disk.resolve (.ofText target))) := by
  rw [scansAt, scansOf_scanFiles, List.countP_filterMap]
  refine List.countP_congr fun path _ => ?_
  rw [hasFindings]
  cases (scanFile settings disk (disk.resolve (.ofText target)) path).toOption with
  | none => rfl
  | some scan => rfl

/-- Whether an audit is what the scans of a target add up to, in whatever order they arrive. -/
def IsAuditOf (settings : Settings) (disk : Disk) (target : String) (audit : Audit) : Prop :=
  ∃ scans : List FileScan, scans.Perm (scansAt settings disk target) ∧
    audit = .ofScans (disk.resolve (.ofText target)).text scans

theorem isAuditOf_audit (settings : Settings) (disk : Disk) (target : String) :
    IsAuditOf settings disk target (Project.audit settings disk target).2 :=
  ⟨_, .refl _, audit_eq settings disk target⟩

/-- Workers that are done have made an audit. -/
theorem Pool.Run.isAuditOf {pool : Pool} {workers : Nat}
    (run :
      let root := disk.resolve (.ofText target)
      Pool.Run settings disk root workers
        (.start (discover disk root settings.excludedDirectories)) pool)
    (done : pool.isDone = true) :
    IsAuditOf settings disk target (pool.audit (disk.resolve (.ofText target))) :=
  ⟨_, (run.collected_perm done).filterMap _, rfl⟩

/-- What the totals of an audit say about the files at some paths. Each violation is counted once,
under its kind; the files are those that could be read, and those with violations are those whose
scans found something. They are the files whose sources are kept, and a source has the lines that
the violations of its file name. -/
structure Accounting (settings : Settings) (disk : Disk) (root : Path) (paths : List Path)
    (audit : Audit) : Prop where
  counts : audit.summary.Counts audit.violations
  files : audit.summary.files = (paths.countP fun path => (disk.readText path).isOk : Nat)
  filesWithViolations :
    audit.summary.filesWithViolations = (paths.countP (hasFindings settings disk root) : Nat)
  sources : audit.summary.filesWithViolations = audit.sources.length
  apart : (audit.sources.map (·.path)).Nodup
  few : audit.summary.filesWithViolations ≤ audit.summary.files
  compliance : audit.summary.compliance =
    if audit.summary.files = 0 then .zero
    else (Binary64.ofQuotient (audit.summary.files - audit.summary.filesWithViolations)
      audit.summary.files.toNat).hundredfold
  located : ∀ violation ∈ audit.violations, ∃ source,
    Analysis.sourceOf? audit.sources violation.file = some source ∧
      source.path = violation.file ∧
      (1 ≤ violation.line ∧ violation.line ≤ source.lines.length ∨
        violation.line = 0 ∧ source.isManifest = true ∧ source.lines = [])
  repairable : ∀ (keeps : Violation → Bool), ∀ file ∈ filesToRepair (audit.violations.filter keeps),
    ∃ source, Analysis.sourceOf? audit.sources file = some source

/-- A violation of an audit is about the source that is kept for its file. -/
theorem exists_source_of_isAuditOf (sound : disk.isSound = true)
    (distinct : disk.tree.hasDistinctNames = true) (isAudit : IsAuditOf settings disk target audit)
    {violation : Violation} (found : violation ∈ audit.violations) :
    ∃ source, Analysis.sourceOf? audit.sources violation.file = some source ∧
      (violation.LiesIn source ∨
        (violation.IsAboutEmpty source ∧ source.isManifest = true)) := by
  obtain ⟨scans, arrived, rfl⟩ := isAudit
  obtain ⟨scan, member, inside, kept⟩ := Audit.exists_scan_ofScans
    (fun scan member => isOrdered_of_mem_scansAt (arrived.mem_iff.mp member))
    ((haveDistinctPaths_scansAt sound distinct).of_perm arrived.symm) found
  obtain ⟨testPath, violations⟩ := violations_of_mem_scansAt (arrived.mem_iff.mp member)
  rw [violations] at inside
  exact ⟨scan.source, kept, of_mem_scanSource inside⟩

/-- The totals of an audit agree with the files of its target, whichever of them can be read and
in whatever order their scans arrive. -/
theorem accounting_of_isAuditOf (sound : disk.isSound = true)
    (distinct : disk.tree.hasDistinctNames = true)
    (isAudit : IsAuditOf settings disk target audit) :
    let root := disk.resolve (.ofText target)
    Accounting settings disk root (discover disk root settings.excludedDirectories) audit := by
  intro root
  have about {violation : Violation} (found : violation ∈ audit.violations) :=
    exists_source_of_isAuditOf sound distinct isAudit found
  obtain ⟨scans, arrived, rfl⟩ := isAudit
  have ordered : ∀ scan ∈ scans, scan.IsOrdered := fun scan member =>
    isOrdered_of_mem_scansAt (arrived.mem_iff.mp member)
  have apart : HaveDistinctPaths scans :=
    (haveDistinctPaths_scansAt sound distinct).of_perm arrived.symm
  have withViolations := @Audit.filesWithViolations_ofScans _ root.text ordered apart
  have few : (Audit.ofScans root.text scans).summary.filesWithViolations ≤
      (Audit.ofScans root.text scans).summary.files := by
    rw [withViolations]
    exact Int.ofNat_le.mpr List.countP_le_length
  constructor
  case counts => exact Summary.counts_ofViolations _ _
  case files =>
    rw [← length_scansAt, ← arrived.length_eq]
    rfl
  case filesWithViolations => rw [withViolations, ← countP_scansAt, arrived.countP_eq]
  case sources => rw [withViolations, Audit.length_sources_ofScans]
  case apart => exact Audit.nodup_sources_ofScans apart
  case few => exact few
  case compliance => exact Summary.percentage_of_le (Int.natCast_nonneg _) few
  case located =>
    intro violation found
    obtain ⟨source, kept, lies | ⟨⟨file, line, none⟩, manifest⟩⟩ := about found
    · obtain ⟨file, first, last⟩ := Violation.liesIn_iff.mp lies
      exact ⟨source, kept, file.symm, Or.inl ⟨first, last⟩⟩
    · exact ⟨source, kept, file.symm, Or.inr ⟨line, manifest, none⟩⟩
  case repairable =>
    intro keeps file member
    obtain ⟨violation, chosen, rfl⟩ := mem_filesToRepair.mp member
    obtain ⟨source, kept, _⟩ := about (List.mem_filter.mp chosen).1
    exact ⟨source, kept⟩

/-- Workers that take three files, one of which may not be read, add up. -/
theorem accounting_of_isAuditOf_partlyReadable :
    let root := partlyReadable.resolve (.ofText ".")
    let paths := discover partlyReadable root Settings.standard.excludedDirectories
    let pool : Pool := ⟨[], [], [], (scanFiles .standard partlyReadable root paths).reverse⟩
    partlyReadable.isSound = true ∧ partlyReadable.tree.hasDistinctNames = true ∧
      IsAuditOf .standard partlyReadable "." (pool.audit root) ∧
      Accounting .standard partlyReadable root paths (pool.audit root) := by
  intro root paths pool
  have sound : partlyReadable.isSound = true := by decide
  have distinct : partlyReadable.tree.hasDistinctNames = true := by decide
  have run : Pool.Run .standard partlyReadable root (workerCount .standard paths.length)
      (.start paths) pool :=
    Pool.run_of_perm (workerCount_pos (by decide) paths.length) (List.reverse_perm _)
  have isAudit : IsAuditOf .standard partlyReadable "." (pool.audit root) := run.isAuditOf rfl
  exact ⟨sound, distinct, isAudit, accounting_of_isAuditOf sound distinct isAudit⟩

end Project

end CrateAudit

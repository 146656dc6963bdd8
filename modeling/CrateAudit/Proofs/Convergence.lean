/-
This file says when one run of fixes is enough. A second run looks at the same files.
Those that the first one left alone it leaves alone again; in a file that the first one
repaired it finds work exactly if the repair left a reported call that can be replaced,
or put a discarded value that can be removed where a call was.
-/

import CrateAudit.Proofs.Discarding
import CrateAudit.Proofs.SecondLook

namespace CrateAudit

namespace Project

variable {settings : Settings} {disk : Disk} {target : String} {options : RepairOptions}

/-! ### Runs that have nothing to do -/

/-- The violations to fix in a file are those that its scan found. -/
theorem mem_violationsIn_iff (options : RepairOptions) (sound : disk.isSound = true)
    {scan : FileScan} (member : scan ∈ scansAt settings disk target) {violation : Violation} :
    violation ∈ violationsIn settings disk target options scan.source.path ↔
      violation ∈ scan.violations ∧ violation.kind ∈ options.kinds := by
  rw [violationsIn, List.mem_filter, beq_iff_eq, mem_chosenViolations]
  constructor
  · rintro ⟨⟨found, chosen⟩, file⟩
    obtain ⟨other, member', inside, file'⟩ := exists_scan_of_mem_violations found
    rw [scan_eq_of_path sound member member' (file.symm.trans file')]
    exact ⟨inside, chosen⟩
  · rintro ⟨inside, chosen⟩
    have found : violation ∈ (audit settings disk target).2.violations := by
      rw [audit_eq, Audit.mem_violations_ofScans]
      exact ⟨scan, member, inside⟩
    obtain ⟨place, bytes, _, _, violations⟩ := (mem_scansAt_iff sound).mp member
    rw [violations] at inside
    exact ⟨⟨found, chosen⟩, file_of_mem_scanSource inside⟩

/-- What is planned for a file is planned for what its scan found. -/
theorem plannedFor_eq (options : RepairOptions) (sound : disk.isSound = true) {scan : FileScan}
    (member : scan ∈ scansAt settings disk target) :
    plannedFor settings disk target options scan.source.path =
      (Fix.planFile scan.source
        (violationsIn settings disk target options scan.source.path)).edits := by
  rw [plannedFor, plannedEdits]
  split
  · rename_i none
    symm
    rw [Fix.edits_planFile_eq_nil]
    intro violation inside
    have chosen := (mem_violationsIn_iff options sound member).mp inside
    refine absurd none (Option.isSome_iff_ne_none.mp ?_)
    rw [Analysis.sourceOf?, List.find?_isSome]
    refine ⟨scan.source, ?_, beq_self_eq_true _⟩
    rw [audit_eq, Audit.mem_sources_ofScans]
    exact ⟨scan, member, List.ne_nil_of_mem chosen.1, rfl⟩
  · rename_i source kept
    obtain ⟨inside, path⟩ := Analysis.sourceOf?_eq_some kept
    rw [audit_eq, Audit.mem_sources_ofScans] at inside
    obtain ⟨other, member', _, rfl⟩ := inside
    rw [scan_eq_of_path sound member' member path]
    rfl

/-- Nothing is done in a file that can be written exactly if nothing in it can be fixed. -/
theorem madeFor_eq_nil_iff (sound : disk.isSound = true) {scan : FileScan}
    (member : scan ∈ scansAt settings disk target) :
    madeFor settings disk target options scan.source.path = [] ↔
      ((placeOf disk (disk.resolve (.ofText target)) scan.source.path).names ∉ disk.unwritable →
        ∀ violation ∈ scan.violations, violation.kind ∈ options.kinds →
          Fix.isEditable scan.source.lines violation = false) := by
  have planned := plannedFor_eq options sound member
  rw [plannedFor] at planned
  rw [madeFor, madeEdits, planned]
  split
  · rename_i forbidden
    exact iff_of_true rfl fun allowed => absurd forbidden allowed
  · rename_i allowed
    rw [Fix.edits_planFile_eq_nil]
    constructor
    · exact fun settled _ violation inside chosen =>
        settled violation ((mem_violationsIn_iff options sound member).mpr ⟨inside, chosen⟩)
    · intro settled violation inside
      obtain ⟨found, chosen⟩ := (mem_violationsIn_iff options sound member).mp inside
      exact settled allowed violation found chosen

/-- The files of a repair have been scanned. -/
theorem exists_scan_of_mem_repairFilesOf {file : String}
    (member : file ∈ repairFilesOf settings disk target options) :
    ∃ scan ∈ scansAt settings disk target, scan.source.path = file := by
  obtain ⟨violation, chosen, rfl⟩ := mem_filesToRepair.mp member
  obtain ⟨scan, scanned, _, file⟩ :=
    exists_scan_of_mem_violations (mem_chosenViolations.mp chosen).1
  exact ⟨scan, scanned, file.symm⟩

/-- A file in which something is done is a file of the repair. -/
theorem mem_repairFilesOf_of_madeFor (sound : disk.isSound = true) {scan : FileScan}
    (member : scan ∈ scansAt settings disk target)
    (filled : madeFor settings disk target options scan.source.path ≠ []) :
    scan.source.path ∈ repairFilesOf settings disk target options := by
  refine Decidable.byContradiction fun absent => filled ?_
  rw [madeFor_eq_nil_iff sound member]
  intro _ violation inside chosen
  have listed := (mem_violationsIn_iff options sound member).mpr ⟨inside, chosen⟩
  rw [violationsIn, List.mem_filter, beq_iff_eq] at listed
  exact absurd (mem_filesToRepair.mpr ⟨violation, listed⟩) absent

/-- A run does nothing exactly if nothing can be fixed in any file that can be written. -/
theorem idle_iff (sound : disk.isSound = true) (wet : options.dryRun = false) :
    let run := repair settings disk target options
    (run.repair.edits = [] ∧ run.repair.files = [] ∧ run.disk = disk) ↔
      ∀ scan ∈ scansAt settings disk target,
        madeFor settings disk target options scan.source.path = [] := by
  intro run
  obtain ⟨tree, edits, files, _⟩ := repair_of_wet settings target sound wet
  constructor
  · rintro ⟨none, _⟩ scan member
    refine Decidable.byContradiction fun filled => ?_
    have listed := mem_repairFilesOf_of_madeFor sound member filled
    rw [edits, List.flatMap_eq_nil_iff] at none
    exact filled (none _ listed)
  · intro settled
    have each : ∀ file ∈ repairFilesOf settings disk target options,
        madeFor settings disk target options file = [] := fun file listed => by
      obtain ⟨scan, member, rfl⟩ := exists_scan_of_mem_repairFilesOf listed
      exact settled scan member
    have unwritten : writesOf settings disk target options = [] := by
      rw [writesOf, List.filterMap_eq_nil_iff]
      intro file listed
      rw [write?, if_pos]
      exact each file listed
    refine ⟨?_, ?_, ?_⟩
    · rw [edits, List.flatMap_eq_nil_iff]
      exact each
    · rw [files, List.filter_eq_nil_iff]
      intro file listed
      simp [each file listed]
    · rw [tree, unwritten]
      rfl

/-! ### What a second look finds -/

/-- The path that tells whether a file of a target holds tests, if it is not the one that is
shown. -/
def testPathIn (disk : Disk) (target file : String) : Option String :=
  let root := disk.resolve (.ofText target)
  testPathOf root (placeOf disk root file)

/-- A scan is of a text with line feeds only, and holds what is found in it. -/
theorem of_mem_scansAt (sound : disk.isSound = true) {scan : FileScan}
    (member : scan ∈ scansAt settings disk target) :
    scan.source = .ofText scan.source.path scan.source.content ∧ '\r' ∉ scan.source.content ∧
      scan.violations =
        scanSource settings scan.source (testPathIn disk target scan.source.path) := by
  obtain ⟨place, bytes, audited, _, violations⟩ := (mem_scansAt_iff sound).mp member
  refine ⟨?_, ?_, ?_⟩
  · rw [audited.source]
    rfl
  · rw [audited.source]
    exact Text.return_not_mem_unifyLineFeeds _
  · rw [testPathIn, audited.placeOf sound (Disk.isPlain_resolve sound _)]
    exact violations

/-- The source of a file after a repair. -/
def sourceAfter (settings : Settings) (disk : Disk) (target : String) (options : RepairOptions)
    (source : Source) : Source :=
  if madeFor settings disk target options source.path = [] then source
  else repairedSource source.path source.content
    (violationsIn settings disk target options source.path)

/-- What a scan is after a repair. -/
def scanAfter (settings : Settings) (disk : Disk) (target : String) (options : RepairOptions)
    (scan : FileScan) : FileScan :=
  let source := sourceAfter settings disk target options scan.source
  ⟨source, scanSource settings source (testPathIn disk target scan.source.path)⟩

theorem path_sourceAfter (source : Source) :
    (sourceAfter settings disk target options source).path = source.path := by
  rw [sourceAfter]
  split <;> rfl

theorem scanAfter_of_nil (sound : disk.isSound = true) {scan : FileScan}
    (member : scan ∈ scansAt settings disk target)
    (none : madeFor settings disk target options scan.source.path = []) :
    scanAfter settings disk target options scan = scan := by
  have same : sourceAfter settings disk target options scan.source = scan.source := by
    rw [sourceAfter, if_pos none]
  have violations := (of_mem_scansAt sound member).2.2
  obtain ⟨source, found⟩ := scan
  simp only at same violations
  rw [scanAfter, same, violations]

/-- The place of a file holds after a repair what its source after the repair is read from. -/
theorem exists_bytes_after (sound : disk.isSound = true) (wet : options.dryRun = false)
    {place : List String} {bytes : Bytes} {source : Source}
    (audited : IsAudited disk (disk.resolve (.ofText target)) place bytes source)
    (listed : madeFor settings disk target options source.path ≠ [] →
      source.path ∈ repairFilesOf settings disk target options) :
    ∃ after, (repair settings disk target options).disk.tree.view place = some (some after) ∧
      sourceAfter settings disk target options source =
        .ofText source.path (Text.unifyLineFeeds (Text.decode after)) := by
  have filtered := filter_edits_repair settings target sound wet source.path
  rcases file_cases settings target sound wet audited.stands with
    ⟨none, same⟩ | ⟨some, other, audited', planned, written⟩
  · rw [← audited.path, filtered] at none
    refine ⟨bytes, same, ?_⟩
    have idle : madeFor settings disk target options source.path = [] := by
      refine Decidable.byContradiction fun filled => ?_
      rw [if_pos (listed filled)] at none
      exact filled none
    rw [sourceAfter, if_pos idle, audited.source]
    rfl
  · have own := (audited.unique audited').2
    subst own
    rw [← audited.path] at some planned written
    refine ⟨_, written, ?_⟩
    have filled : madeFor settings disk target options source.path ≠ [] := by
      rw [filtered] at some
      intro none
      rw [none, ite_self] at some
      exact some rfl
    rw [sourceAfter, if_neg filled, planned, repairedSource]
    have shape : source = .ofText source.path source.content := by
      rw [audited.source]
      rfl
    have feeds : '\r' ∉ source.content := by
      rw [audited.source]
      exact Text.return_not_mem_unifyLineFeeds _
    have read := read_repairedText source.path
      (violationsIn settings disk target options source.path) feeds
    rw [← shape] at read ⊢
    rw [read]

/-- A second look finds the scans of the first one as they are after the repair. -/
theorem mem_scansAt_repair_iff (sound : disk.isSound = true) (wet : options.dryRun = false)
    {scan : FileScan} :
    scan ∈ scansAt settings (repair settings disk target options).disk target ↔
      ∃ before ∈ scansAt settings disk target,
        scan = scanAfter settings disk target options before := by
  have plain := Disk.isPlain_resolve sound (.ofText target)
  have sound' := isSound_repair settings target sound wet
  have resembles := resembles_repair settings target sound wet
  have root := resolve_repair settings target sound wet (.ofText target)
  have found := discover_repair settings target sound wet plain
    settings.excludedDirectories
  have after {before : FileScan} (member : before ∈ scansAt settings disk target) :
      scanAfter settings disk target options before ∈
        scansAt settings (repair settings disk target options).disk target := by
    obtain ⟨place, bytes, audited, inside, violations⟩ := (mem_scansAt_iff sound).mp member
    obtain ⟨bytes', view, read⟩ := exists_bytes_after sound wet audited
      (mem_repairFilesOf_of_madeFor sound member)
    refine (mem_scansAt_iff sound').mpr ?_
    rw [root, found]
    refine ⟨place, bytes', ⟨audited.plain, ?_, view, ?_, ?_⟩, inside, ?_⟩
    · rw [← found] at inside
      exact (isBelow_of_mem_discover sound' plain inside).2.2
    · rw [resembles.unreadable]
      exact audited.readable
    · rw [← audited.path]
      exact read
    · rw [scanAfter, testPathIn, audited.placeOf sound plain]
  constructor
  · intro member
    obtain ⟨place, bytes', audited', inside, _⟩ := (mem_scansAt_iff sound').mp member
    rw [root] at audited' inside
    rw [found] at inside
    obtain ⟨_, plainPlace, below⟩ := isBelow_of_mem_discover sound plain inside
    obtain ⟨bytes, stands⟩ := Tree.SameShape.exists_file
      (fun place => (resembles.shape place).symm) audited'.stands
    have readable : place ∉ disk.unreadable := by
      rw [← resembles.unreadable]
      exact audited'.readable
    have audited : IsAudited disk (disk.resolve (.ofText target)) place bytes
        (.ofText (shownName (disk.resolve (.ofText target)) place)
          (Text.unifyLineFeeds (Text.decode bytes))) :=
      ⟨plainPlace, below, stands, readable, rfl⟩
    generalize Source.ofText (shownName (disk.resolve (.ofText target)) place)
      (Text.unifyLineFeeds (Text.decode bytes)) = source at audited
    have member' : FileScan.mk source (scanSource settings source
        (testPathOf (disk.resolve (.ofText target))
          ⟨(disk.resolve (.ofText target)).start, place⟩)) ∈ scansAt settings disk target :=
      (mem_scansAt_iff sound).mpr ⟨place, bytes, audited, inside, rfl⟩
    refine ⟨_, member', scan_eq_of_path sound' member (after member') ?_⟩
    rw [audited'.path, scanAfter]
    exact audited.path.symm.trans (path_sourceAfter source).symm
  · rintro ⟨before, member, rfl⟩
    exact after member

/-! ### Runs after a run -/

/-- A file in which something is done is no manifest. -/
theorem not_isManifest_of_madeFor (sound : disk.isSound = true) {scan : FileScan}
    (member : scan ∈ scansAt settings disk target)
    (filled : madeFor settings disk target options scan.source.path ≠ []) :
    scan.source.isManifest = false := by
  refine Bool.not_eq_true _ |>.mp fun manifest => filled ?_
  rw [madeFor_eq_nil_iff sound member]
  intro _ violation inside _
  rw [(of_mem_scansAt sound member).2.2, scanSource, if_pos manifest] at inside
  refine Fix.isEditable_of_not_fixable ?_
  rcases (Scan.of_mem_manifest inside).2 with kind | kind <;> rw [kind] <;> decide

/-- A second run does nothing exactly if nothing can be fixed in the files that the first one has
repaired, as they are read again. -/
theorem idle_repair_iff (sound : disk.isSound = true) (wet : options.dryRun = false) :
    let first := repair settings disk target options
    let second := repair settings first.disk target options
    (second.repair.edits = [] ∧ second.repair.files = [] ∧ second.disk = first.disk) ↔
      ∀ scan ∈ scansAt settings disk target,
        madeFor settings disk target options scan.source.path ≠ [] →
          ∀ violation ∈ (scanAfter settings disk target options scan).violations,
            violation.kind ∈ options.kinds →
              Fix.isEditable (scanAfter settings disk target options scan).source.lines
                violation = false := by
  intro first second
  have sound' : first.disk.isSound = true := isSound_repair settings target sound wet
  have plain := Disk.isPlain_resolve sound (.ofText target)
  have resembles : Resembles disk first.disk := resembles_repair settings target sound wet
  have root : first.disk.resolve (.ofText target) = _ :=
    resolve_repair settings target sound wet _
  have again {scan : FileScan} (member : scan ∈ scansAt settings disk target) :
      madeFor settings first.disk target options scan.source.path = [] ↔
        ((placeOf disk (disk.resolve (.ofText target)) scan.source.path).names ∉
            disk.unwritable →
          ∀ violation ∈ (scanAfter settings disk target options scan).violations,
            violation.kind ∈ options.kinds →
              Fix.isEditable (scanAfter settings disk target options scan).source.lines
                violation = false) := by
    have member' : scanAfter settings disk target options scan ∈
        scansAt settings first.disk target :=
      (mem_scansAt_repair_iff sound wet).mpr ⟨scan, member, rfl⟩
    have named : (scanAfter settings disk target options scan).source.path = scan.source.path :=
      path_sourceAfter _
    rw [← named]
    refine (madeFor_eq_nil_iff sound' member').trans ?_
    rw [root, resembles.placeOf plain, resembles.unwritable, named]
  refine (idle_iff sound' wet).trans ?_
  constructor
  · intro settled scan member filled
    have idle := settled _ ((mem_scansAt_repair_iff sound wet).mpr ⟨scan, member, rfl⟩)
    rw [scanAfter, path_sourceAfter, again member] at idle
    refine idle fun forbidden => filled ?_
    rw [madeFor, madeEdits, if_pos forbidden]
  · intro settled scan' member'
    obtain ⟨scan, member, rfl⟩ := (mem_scansAt_repair_iff sound wet).mp member'
    rw [scanAfter, path_sourceAfter, again member]
    intro allowed
    by_cases none : madeFor settings disk target options scan.source.path = []
    · rw [scanAfter_of_nil sound member none]
      exact (madeFor_eq_nil_iff sound member).mp none allowed
    · exact settled scan member none

/-- What is done in a file is what is planned for it. -/
theorem madeFor_eq (sound : disk.isSound = true) {scan : FileScan}
    (member : scan ∈ scansAt settings disk target)
    (filled : madeFor settings disk target options scan.source.path ≠ []) :
    madeFor settings disk target options scan.source.path =
      (Fix.planFile scan.source
        (violationsIn settings disk target options scan.source.path)).edits :=
  (madeFor_eq_plannedFor filled).trans (plannedFor_eq options sound member)

/-- A file that a run has repaired is looked at again with the lines that its edits leave. -/
theorem scanAfter_of_ne_nil (sound : disk.isSound = true) {scan : FileScan}
    (member : scan ∈ scansAt settings disk target)
    (filled : madeFor settings disk target options scan.source.path ≠ []) :
    ∃ source, source = repairedSource scan.source.path scan.source.content
        (violationsIn settings disk target options scan.source.path) ∧
      scanAfter settings disk target options scan =
        ⟨source, Scan.rustFile settings source (testPathIn disk target scan.source.path)⟩ := by
  have after : sourceAfter settings disk target options scan.source = repairedSource _ _ _ :=
    if_neg filled
  refine ⟨_, rfl, ?_⟩
  have rust : (sourceAfter settings disk target options scan.source).isManifest = false := by
    rw [Source.isManifest, path_sourceAfter]
    exact not_isManifest_of_madeFor sound member filled
  rw [scanAfter, scanSource, rust, ← after]
  rfl

/-- In a file that a run has repaired, the discarded values that can still be removed are those that
its edits put there. -/
theorem discards_scanAfter_iff (own : settings.AddsOwnKind) (sound : disk.isSound = true)
    {scan : FileScan} (member : scan ∈ scansAt settings disk target)
    (filled : madeFor settings disk target options scan.source.path ≠ [])
    (chosen : .underscoreBandaid ∈ options.kinds) :
    (∀ violation ∈ (scanAfter settings disk target options scan).violations,
        violation.kind = .underscoreBandaid →
          Fix.isEditable (scanAfter settings disk target options scan).source.lines
            violation = false) ↔
      (Scan.checksUnderscores settings = true →
        ∀ edit ∈ madeFor settings disk target options scan.source.path,
          ∀ text, edit.replacement = some text →
            (Fix.removeDiscard text).isApplicable = false) := by
  obtain ⟨shape, feeds, violations⟩ := of_mem_scansAt sound member
  have rust := not_isManifest_of_madeFor sound member filled
  have planned : ∀ violation, violation.kind = .underscoreBandaid →
      (violation ∈ violationsIn settings disk target options scan.source.path ↔
        violation ∈ Scan.rustFile settings (.ofText scan.source.path scan.source.content)
          (testPathIn disk target scan.source.path)) := by
    intro violation kind
    rw [mem_violationsIn_iff options sound member, ← shape, violations, scanSource, rust, kind]
    exact ⟨And.left, fun inside => ⟨inside, chosen⟩⟩
  have settled := discards_settled_iff own feeds planned
  rw [← shape, ← madeFor_eq sound member filled] at settled
  obtain ⟨source, rfl, again⟩ := scanAfter_of_ne_nil sound member filled
  rw [again]
  exact settled

/-- In a file that a run has repaired, the calls that can still be replaced are those in the text
that its edits leave. -/
theorem calls_scanAfter_iff (own : settings.AddsOwnKind) (sound : disk.isSound = true)
    {scan : FileScan} (member : scan ∈ scansAt settings disk target)
    (filled : madeFor settings disk target options scan.source.path ≠ []) :
    (∀ violation ∈ (scanAfter settings disk target options scan).violations,
        violation.kind = .unwrapInProduction →
          Fix.isEditable (scanAfter settings disk target options scan).source.lines
            violation = false) ↔
      (settings.isEnabled .unwrapInProduction = true →
        ¬ Scan.HoldsReplaceableCall settings
          (Scan.decidingPath scan.source (testPathIn disk target scan.source.path))
          (Text.lines (repairedText scan.source
            (madeFor settings disk target options scan.source.path)))) := by
  have shape := (of_mem_scansAt sound member).1
  obtain ⟨source, rfl, again⟩ := scanAfter_of_ne_nil sound member filled
  rw [again, madeFor_eq sound member filled]
  refine (Scan.calls_settled_iff own).trans ?_
  rw [repairedSource, Source.lines_ofText, ← shape]
  rfl

/-- No edit puts a discarded value that the next run would remove. -/
def MakesNoDiscard (settings : Settings) (options : RepairOptions) (edits : List Fix.Edit) :
    Prop :=
  .underscoreBandaid ∈ options.kinds → Scan.checksUnderscores settings = true →
    ∀ edit ∈ edits, ∀ text, edit.replacement = some text →
      (Fix.removeDiscard text).isApplicable = false

/-- In no file do its edits leave a text with a call that the next run would replace. -/
def LeavesNoCall (settings : Settings) (disk : Disk) (target : String) (options : RepairOptions)
    (edits : List Fix.Edit) : Prop :=
  .unwrapInProduction ∈ options.kinds → settings.isEnabled .unwrapInProduction = true →
    ∀ scan ∈ scansAt settings disk target,
      let made := edits.filter (·.file == scan.source.path)
      made ≠ [] →
        ¬ Scan.HoldsReplaceableCall settings
          (Scan.decidingPath scan.source (testPathIn disk target scan.source.path))
          (Text.lines (repairedText scan.source made))

/-- The edits reported for a scanned file are those made in it. -/
theorem filter_edits_eq_madeFor (sound : disk.isSound = true) (wet : options.dryRun = false)
    {scan : FileScan} (member : scan ∈ scansAt settings disk target) :
    (repair settings disk target options).repair.edits.filter (·.file == scan.source.path) =
      madeFor settings disk target options scan.source.path := by
  rw [filter_edits_repair settings target sound wet]
  split
  · rfl
  · rename_i unlisted
    refine Eq.symm (Decidable.byContradiction fun filled => unlisted ?_)
    exact mem_repairFilesOf_of_madeFor sound member filled

/-- In a file that a run has repaired, a second run finds nothing to do exactly if the edits put no
discarded value that can be removed and leave no call that can be replaced. -/
theorem settled_scanAfter_iff (own : settings.AddsOwnKind) (sound : disk.isSound = true)
    {scan : FileScan} (member : scan ∈ scansAt settings disk target)
    (filled : madeFor settings disk target options scan.source.path ≠ []) :
    (∀ violation ∈ (scanAfter settings disk target options scan).violations,
        violation.kind ∈ options.kinds →
          Fix.isEditable (scanAfter settings disk target options scan).source.lines
            violation = false) ↔
      MakesNoDiscard settings options (madeFor settings disk target options scan.source.path) ∧
        (.unwrapInProduction ∈ options.kinds → settings.isEnabled .unwrapInProduction = true →
          ¬ Scan.HoldsReplaceableCall settings
            (Scan.decidingPath scan.source (testPathIn disk target scan.source.path))
            (Text.lines (repairedText scan.source
              (madeFor settings disk target options scan.source.path)))) := by
  constructor
  · intro settled
    refine ⟨fun chosen => ?_, fun chosen => ?_⟩
    · refine (discards_scanAfter_iff own sound member filled chosen).mp ?_
      exact fun violation inside kind => settled violation inside (kind ▸ chosen)
    · refine (calls_scanAfter_iff own sound member filled).mp ?_
      exact fun violation inside kind => settled violation inside (kind ▸ chosen)
  · rintro ⟨noDiscard, noCall⟩ violation inside chosen
    refine Bool.not_eq_true _ |>.mp fun editable => Bool.false_ne_true ?_
    rcases Fix.kind_of_isEditable editable with kind | kind <;> rw [kind] at chosen
    · exact ((calls_scanAfter_iff own sound member filled).mpr (noCall chosen)
        violation inside kind).symm.trans editable
    · exact ((discards_scanAfter_iff own sound member filled chosen).mpr (noDiscard chosen)
        violation inside kind).symm.trans editable

/-- After a run that writes, a second run with the same options does nothing exactly if no edit of
the first one put a discarded value that can be removed where a call was, and no text that its edits
left holds a call that can be replaced. -/
theorem idle_again_iff {table : Table} (readable : (Settings.read table).2 = .ok settings)
    (sound : disk.isSound = true) (wet : options.dryRun = false) :
    let first := repair settings disk target options
    let second := repair settings first.disk target options
    (second.repair.edits = [] ∧ second.repair.files = [] ∧ second.disk = first.disk) ↔
      MakesNoDiscard settings options first.repair.edits ∧
        LeavesNoCall settings disk target options first.repair.edits := by
  intro first second
  have own := Settings.addsOwnKind_of_read readable
  have made {scan : FileScan} (member : scan ∈ scansAt settings disk target) :
      first.repair.edits.filter (·.file == scan.source.path) =
        madeFor settings disk target options scan.source.path :=
    filter_edits_eq_madeFor sound wet member
  obtain ⟨_, edits, _⟩ := repair_of_wet settings target sound wet
  refine (idle_repair_iff sound wet).trans ?_
  constructor
  · intro settled
    refine ⟨fun chosen checks edit done => ?_, fun chosen enabled scan member => ?_⟩
    · rw [edits] at done
      obtain ⟨file, listed, done⟩ := List.mem_flatMap.mp done
      obtain ⟨scan, member, rfl⟩ := exists_scan_of_mem_repairFilesOf listed
      have filled := List.ne_nil_of_mem done
      exact ((settled_scanAfter_iff own sound member filled).mp
        (settled scan member filled)).1 chosen checks edit done
    · rw [made member]
      intro made' filled
      exact ((settled_scanAfter_iff own sound member filled).mp
        (settled scan member filled)).2 chosen enabled
  · rintro ⟨noDiscard, noCall⟩ scan member filled
    refine (settled_scanAfter_iff own sound member filled).mpr
      ⟨fun chosen checks edit done => ?_, fun chosen enabled => ?_⟩
    · rw [← made member] at done
      exact noDiscard chosen checks edit (List.mem_filter.mp done).1
    · have clear := noCall chosen enabled scan member
      rw [made member] at clear
      exact clear filled

/-- A library that discards the value of a call. -/
def discardingText : String :=
  "fn f(a: Option<u8>) -> Option<u8> \x7b\n    let _ = a.unwrap();\n    a\n\x7d\n"

theorem idle_again_iff_discardingText :
    let disk := Disk.withLibrary discardingText
    let options : RepairOptions := ⟨[], [], false⟩
    let first := repair .standard disk "." options
    let second := repair .standard first.disk "." options
    (Settings.read []).2 = .ok Settings.standard ∧ disk.isSound = true ∧ options.dryRun = false ∧
      ((second.repair.edits = [] ∧ second.repair.files = [] ∧ second.disk = first.disk) ↔
        MakesNoDiscard .standard options first.repair.edits ∧
          LeavesNoCall .standard disk "." options first.repair.edits) := by
  intro disk options first second
  have sound : disk.isSound = true := by decide
  exact ⟨Settings.read_nil, sound, rfl, idle_again_iff Settings.read_nil sound rfl⟩

/-! ### A call whose value is discarded -/

/-- The library after one run. -/
def rewrittenText : String :=
  "fn f(a: Option<u8>) -> Option<u8> \x7b\n    let _ = a?;\n    a\n\x7d\n"

/-- What is found in the library: the binding and the call on its second line. -/
def discardingViolations : List Violation :=
  [Rule.underscoreBinding.located "src/lib.rs" 1, Rule.unwrapCall.located "src/lib.rs" 1]

theorem audit_discardingText :
    let audit := (Project.audit .standard (.withLibrary discardingText) ".").2
    audit.violations = discardingViolations ∧ audit.sources = [librarySource discardingText] := by
  intro audit
  have sorted : Scan.rustFile .standard (librarySource discardingText) none =
      discardingViolations :=
    Scan.rustFile_eq_of_pairwise (by decide +kernel) (by decide)
  have scanned : audit =
      Audit.ofScans "/" [⟨librarySource discardingText, discardingViolations⟩] := by
    rw [← sorted, ← scansAt_withLibrary (by decide) (by decide)]
    rfl
  rw [scanned]
  exact ⟨List.mergeSort_of_pairwise (by decide), rfl⟩

/-- The first run replaces the call and leaves the binding. -/
theorem repair_discardingText :
    let run := repair .standard (.withLibrary discardingText) "." ⟨[], [], false⟩
    run.disk = .withLibrary rewrittenText ∧ run.repair.files = ["src/lib.rs"] := by
  intro run
  have sound : (Disk.withLibrary discardingText).isSound = true := by decide
  have wet : (RepairOptions.mk [] [] false).dryRun = false := rfl
  obtain ⟨disk, _, files, _⟩ := repair_of_wet .standard "." sound wet
  obtain ⟨violations, sources⟩ := audit_discardingText
  have root : (Disk.withLibrary discardingText).resolve (.ofText ".") = ⟨.root, []⟩ := rfl
  have place : placeOf (.withLibrary discardingText) ⟨.root, []⟩ "src/lib.rs" =
      ⟨.root, libraryPlace⟩ := by decide
  have chosen : chosenViolations .standard (.withLibrary discardingText) "." ⟨[], [], false⟩ =
      discardingViolations := by
    rw [chosenViolations, violations]
    decide
  have listed : repairFilesOf .standard (.withLibrary discardingText) "." ⟨[], [], false⟩ =
      ["src/lib.rs"] := by
    rw [repairFilesOf, chosen]
    decide +kernel
  have made : madeFor .standard (.withLibrary discardingText) "." ⟨[], [], false⟩
      "src/lib.rs" ≠ [] := by
    rw [madeFor, madeEdits, plannedEdits, chosen, root, sources]
    decide +kernel
  have bytes : repairedBytes (Project.audit .standard (.withLibrary discardingText) ".").2
      discardingViolations "src/lib.rs" = Text.encode rewrittenText.toList := by
    rw [repairedBytes, plannedEdits, sources]
    decide +kernel
  have written : writesOf .standard (.withLibrary discardingText) "." ⟨[], [], false⟩ =
      [(libraryPlace, Text.encode rewrittenText.toList)] := by
    have filled := made
    rw [madeFor, chosen, root] at filled
    rw [writesOf, listed, chosen, root, List.filterMap_cons, write?, if_neg filled, bytes, place]
    rfl
  rw [written] at disk
  rw [listed, List.filter_cons_of_pos (by simpa using made)] at files
  exact ⟨disk.trans rfl, files.trans rfl⟩

/-- The second run takes the binding away, though the first one could write the library. -/
theorem not_idle_again_discardingText :
    let disk := Disk.withLibrary discardingText
    let first := repair .standard disk "." ⟨[], [], false⟩
    let second := repair .standard first.disk "." ⟨[], [], false⟩
    disk.unwritable = [] ∧ first.repair.files = ["src/lib.rs"] ∧
      second.repair.files = ["src/lib.rs"] ∧ second.repair.edits ≠ [] := by
  intro disk first second
  obtain ⟨rewritten, files⟩ := repair_discardingText
  have again : second = repair .standard (.withLibrary rewrittenText) "." ⟨[], [], false⟩ := by
    rw [← rewritten]
  rw [again]
  exact ⟨rfl, files, by decide +kernel, by decide +kernel⟩

end Project

end CrateAudit

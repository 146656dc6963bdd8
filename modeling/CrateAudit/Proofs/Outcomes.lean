/-
This file says what a run that writes leaves behind. Each file on the disk is either the
file it was, and the run reports no edit of it, or it holds the text that the edits
reported for it make of what it held.
-/

import CrateAudit.Proofs.AuditedFiles
import CrateAudit.Proofs.Utf8

namespace CrateAudit

namespace Project

variable {settings : Settings} {disk : Disk} {target : String} {options : RepairOptions}

/-- The files of a repair. -/
def repairFilesOf (settings : Settings) (disk : Disk) (target : String)
    (options : RepairOptions) : List String :=
  filesToRepair (chosenViolations settings disk target options)

/-- The violations to fix in a file. -/
def violationsIn (settings : Settings) (disk : Disk) (target : String) (options : RepairOptions)
    (file : String) : List Violation :=
  (chosenViolations settings disk target options).filter (·.file == file)

/-- The edits planned for a file of a repair. -/
def plannedFor (settings : Settings) (disk : Disk) (target : String) (options : RepairOptions)
    (file : String) : List Fix.Edit :=
  plannedEdits (Project.audit settings disk target).2
    (chosenViolations settings disk target options) file

/-- The edits that a repair makes in a file. -/
def madeFor (settings : Settings) (disk : Disk) (target : String) (options : RepairOptions)
    (file : String) : List Fix.Edit :=
  madeEdits disk (disk.resolve (.ofText target)) (Project.audit settings disk target).2
    (chosenViolations settings disk target options) file

/-- What a repair writes. -/
def writesOf (settings : Settings) (disk : Disk) (target : String) (options : RepairOptions) :
    List (List String × Bytes) :=
  (repairFilesOf settings disk target options).filterMap
    (write? disk (disk.resolve (.ofText target)) (Project.audit settings disk target).2
      (chosenViolations settings disk target options))

/-- A run that writes makes the edits of each file that may be written and tells of the other
ones that it would have edited. -/
theorem repair_of_wet (settings : Settings) (target : String) (sound : disk.isSound = true)
    (wet : options.dryRun = false) :
    let run := repair settings disk target options
    let files := repairFilesOf settings disk target options
    run.disk = { disk with tree := disk.tree.setAll (writesOf settings disk target options) } ∧
      run.repair.edits = files.flatMap (madeFor settings disk target options) ∧
      run.repair.files =
        files.filter (fun file => madeFor settings disk target options file ≠ []) ∧
      ∀ file ∈ files, plannedFor settings disk target options file ≠ [] →
        (placeOf disk (disk.resolve (.ofText target)) file).names ∈ disk.unwritable →
        .repairFailed file .readOnly ∈ run.notices := by
  intro run files
  have startsWet : (startOf settings disk target options).repair.dryRun = false := wet
  have stand : AllStand disk (disk.resolve (.ofText target)) files :=
    allStand_filesToRepair sound options
  have done := repairs_repairFiles (Project.audit settings disk target).2
    (chosenViolations settings disk target options) (Disk.isPlain_resolve sound _) stand
    startsWet (.refl disk)
  refine ⟨done.written, done.edits, done.made, fun file member filled forbidden => ?_⟩
  exact List.mem_append_left _ (done.failed file member filled forbidden)

/-- What is written was read from a file that stands there. -/
theorem stand_writesOf (sound : disk.isSound = true) :
    ∀ write ∈ writesOf settings disk target options,
      ∃ old, disk.tree.view write.1 = some (some old) :=
  (allStand_filesToRepair sound options).of_mem_writes

theorem view_repair (sound : disk.isSound = true) (wet : options.dryRun = false)
    (place : List String) :
    (repair settings disk target options).disk.tree.view place =
      match (writesOf settings disk target options).lookup place with
      | some bytes => some (some bytes)
      | none => disk.tree.view place := by
  rw [(repair_of_wet settings target sound wet).1]
  exact Tree.view_setAll (stand_writesOf sound) (nodup_writes sound options) place

/-- A run that writes puts files where files stood and changes nothing else of a disk. -/
theorem resembles_repair (settings : Settings) (target : String)
    (sound : disk.isSound = true) (wet : options.dryRun = false) :
    Resembles disk (repair settings disk target options).disk := by
  rw [(repair_of_wet settings target sound wet).1]
  exact ⟨rfl, rfl, rfl, Tree.sameShape_setAll (stand_writesOf sound)⟩

theorem file_of_mem_madeFor {file : String} {edit : Fix.Edit}
    (member : edit ∈ madeFor settings disk target options file) : edit.file = file := by
  rw [madeFor, madeEdits] at member
  split at member
  · cases member
  · exact file_of_mem_plannedEdits member

/-- Where something is done in a file, all that is planned for it is done. -/
theorem madeFor_eq_plannedFor {file : String}
    (filled : madeFor settings disk target options file ≠ []) :
    madeFor settings disk target options file = plannedFor settings disk target options file := by
  rw [madeFor, madeEdits] at filled ⊢
  split at filled
  · exact absurd rfl filled
  · rename_i allowed
    exact if_neg allowed

/-- The edits reported for a file are those made in it. -/
theorem filter_edits_repair (settings : Settings) (target : String)
    (sound : disk.isSound = true) (wet : options.dryRun = false) (file : String) :
    (repair settings disk target options).repair.edits.filter (·.file == file) =
      if file ∈ repairFilesOf settings disk target options then
        madeFor settings disk target options file
      else [] := by
  rw [(repair_of_wet settings target sound wet).2.1]
  have distinct : (repairFilesOf settings disk target options).Nodup := nodup_filesToRepair _
  generalize repairFilesOf settings disk target options = files at distinct
  have own : (madeFor settings disk target options file).filter (·.file == file) =
      madeFor settings disk target options file :=
    List.filter_eq_self.mpr fun edit member => by
      rw [file_of_mem_madeFor member, beq_self_eq_true]
  have other {name : String} (apart : file ≠ name) :
      (madeFor settings disk target options name).filter (·.file == file) = [] :=
    List.filter_eq_nil_iff.mpr fun edit member => by
      rw [file_of_mem_madeFor member, beq_iff_eq]
      exact Ne.symm apart
  induction files with
  | nil => rfl
  | cons first rest inductionHypothesis =>
    rw [List.nodup_cons] at distinct
    rw [List.flatMap_cons, List.filter_append, inductionHypothesis distinct.2]
    by_cases same : file = first
    · subst same
      rw [own, if_neg distinct.1, if_pos List.mem_cons_self, List.append_nil]
    · rw [other same, List.nil_append]
      simp [same]

/-- Where writes go to different places, each place gets the one write for it. -/
theorem lookup_eq_some_of_nodup {writes : List (List String × Bytes)}
    (distinct : (writes.map (·.1)).Nodup) {place : List String} {bytes : Bytes} :
    writes.lookup place = some bytes ↔ (place, bytes) ∈ writes := by
  constructor
  · intro found
    obtain ⟨before, after, rfl, _⟩ := List.lookup_eq_some_iff.mp found
    exact List.mem_append_right _ List.mem_cons_self
  · intro member
    obtain ⟨before, after, rfl⟩ := List.append_of_mem member
    refine List.lookup_eq_some_iff.mpr ⟨before, after, rfl, fun entry earlier => ?_⟩
    rw [List.map_append, List.nodup_append] at distinct
    rw [bne_iff_ne]
    exact Ne.symm (distinct.2.2 _ (List.mem_map_of_mem earlier) _ List.mem_cons_self)

theorem lookup_writesOf_eq_some (sound : disk.isSound = true) {place : List String}
    {bytes : Bytes} :
    (writesOf settings disk target options).lookup place = some bytes ↔
      ∃ file ∈ repairFilesOf settings disk target options,
        madeFor settings disk target options file ≠ [] ∧
          (placeOf disk (disk.resolve (.ofText target)) file).names = place ∧
          repairedBytes (Project.audit settings disk target).2
            (chosenViolations settings disk target options) file = bytes := by
  refine (lookup_eq_some_of_nodup (nodup_writes sound options)).trans ?_
  rw [List.mem_filterMap]
  refine exists_congr fun file => and_congr_right fun _ => ?_
  rw [write?, ← madeFor]
  split
  · rename_i none
    simp [none]
  · rename_i some
    simp [some]

/-- A file in which something is done holds the text that its edits make of what was read. -/
theorem exists_written_of_madeFor (settings : Settings) (target : String)
    (sound : disk.isSound = true) (wet : options.dryRun = false) {file : String}
    (member : file ∈ repairFilesOf settings disk target options)
    (filled : madeFor settings disk target options file ≠ []) :
    let edits := madeFor settings disk target options file
    ∃ source place bytes, source.path = file ∧
      IsAudited disk (disk.resolve (.ofText target)) place bytes source ∧
      edits = (Fix.planFile source (violationsIn settings disk target options file)).edits ∧
      (repair settings disk target options).disk.tree.view place =
        some (some (Text.encode (repairedText source edits))) := by
  intro edits
  obtain ⟨source, place, bytes, kept, path, audited⟩ :=
    exists_isAudited_of_mem_filesToRepair sound member
  have planned : edits = plannedFor settings disk target options file :=
    madeFor_eq_plannedFor filled
  refine ⟨source, place, bytes, path, audited, ?_, ?_⟩
  · rw [planned, plannedFor, plannedEdits, kept]
    rfl
  · have written : (writesOf settings disk target options).lookup place =
        some (Text.encode (repairedText source edits)) := by
      rw [lookup_writesOf_eq_some sound]
      refine ⟨file, member, filled, ?_, ?_⟩
      · rw [← path, audited.placeOf sound (Disk.isPlain_resolve sound _)]
      · rw [repairedBytes, kept, planned]
        rfl
    rw [view_repair sound wet, written]

/-- A file is as it was and no edit of it is reported, or the edits reported for it were planned
for what it held, and it holds the text that they make of that. -/
theorem file_cases (settings : Settings) (target : String)
    (sound : disk.isSound = true) (wet : options.dryRun = false)
    {place : List String} {bytes : Bytes}
    (stands : disk.tree.view place = some (some bytes)) :
    let root := disk.resolve (.ofText target)
    let run := repair settings disk target options
    let edits := run.repair.edits.filter (·.file == shownName root place)
    (edits = [] ∧ run.disk.tree.view place = some (some bytes)) ∨
      (edits ≠ [] ∧ ∃ source, IsAudited disk root place bytes source ∧
        edits = (Fix.planFile source
          (violationsIn settings disk target options source.path)).edits ∧
        run.disk.tree.view place =
          some (some (Text.encode (repairedText source edits)))) := by
  intro root run edits
  have plain : root.IsPlain := Disk.isPlain_resolve sound _
  have filtered : edits = _ := filter_edits_repair settings target sound wet (shownName root place)
  by_cases edited : ∃ file ∈ repairFilesOf settings disk target options,
      madeFor settings disk target options file ≠ [] ∧ (placeOf disk root file).names = place
  · obtain ⟨file, member, filled, here⟩ := edited
    obtain ⟨source, place', bytes', rfl, audited, planned, written⟩ :=
      exists_written_of_madeFor settings target sound wet member filled
    rw [audited.placeOf sound plain] at here
    simp only at here
    subst here
    have sameBytes : bytes' = bytes := by
      have both := audited.stands.symm.trans stands
      exact Option.some.inj (Option.some.inj both)
    subst sameBytes
    rw [← audited.path, if_pos member] at filtered
    rw [filtered]
    exact Or.inr ⟨filled, source, audited, planned, written⟩
  · have untouched : (writesOf settings disk target options).lookup place = none := by
      rw [Option.eq_none_iff_forall_ne_some]
      intro put found
      rw [lookup_writesOf_eq_some sound] at found
      obtain ⟨file, member, filled, here, _⟩ := found
      exact edited ⟨file, member, filled, here⟩
    have view : run.disk.tree.view place = _ := view_repair sound wet place
    rw [untouched] at view
    refine Or.inl ⟨?_, view.trans stands⟩
    rw [filtered]
    split
    · rename_i member
      refine Decidable.byContradiction fun filled => edited ⟨_, member, filled, ?_⟩
      obtain ⟨source, place', bytes', _, path, audited⟩ :=
        exists_isAudited_of_mem_filesToRepair sound member
      have same := shownName_injective sound plain stands audited.stands audited.below
        (path.symm.trans audited.path)
      rw [← path, audited.placeOf sound plain, same]
    · rfl

end Project

/-! ### A project of one file -/

/-- A disk with a library and nothing else. -/
def Disk.withLibrary (text : String) : Disk where
  tree := .directory [("src", .directory [("lib.rs", .file (Text.encode text.toList))])]
  workingDirectory := []
  unreadable := []
  unwritable := []

/-- The place of the library. -/
def libraryPlace : List String := ["src", "lib.rs"]

/-- The library as it is read. -/
def librarySource (text : String) : Source := .ofText "src/lib.rs" text.toList

namespace Project

/-- An audit of that disk scans the library, unless the directory it lies in is excluded. -/
theorem scansAt_withLibrary {settings : Settings} (seen : "src" ∉ settings.excludedDirectories)
    {text : String} (feeds : '\r' ∉ text.toList) :
    scansAt settings (.withLibrary text) "." =
      [⟨librarySource text, Scan.rustFile settings (librarySource text) none⟩] := by
  have plain : (Path.mk .root []).IsPlain := ⟨by decide, by decide⟩
  have found : discover (.withLibrary text) ⟨.root, []⟩ settings.excludedDirectories =
      [⟨.root, libraryPlace⟩] := by
    have stands : (Disk.withLibrary text).tree.get? (Path.mk .root []).names =
        some (.directory [("src", .directory [("lib.rs", .file (Text.encode text.toList))])]) :=
      rfl
    have kept : isPruned settings.excludedDirectories "src" = false := by
      rw [isPruned, Bool.or_eq_false_iff]
      exact ⟨by simpa using seen, by decide⟩
    have library : sourcesBelow settings.excludedDirectories
        [("src", .directory [("lib.rs", .file (Text.encode text.toList))])] = [libraryPlace] := by
      have rust : isSourceName "lib.rs" = true := by decide
      simp only [sourcesBelow, sourcesIn, kept, rust]
      rfl
    rw [discover_eq plain, stands]
    simp only [library]
    exact List.mergeSort_singleton _
  have read : scanFile settings (.withLibrary text) ⟨.root, []⟩ ⟨.root, libraryPlace⟩ =
      .ok ⟨librarySource text, Scan.rustFile settings (librarySource text) none⟩ := by
    have shown : (Path.mk .root libraryPlace).shownBelow ⟨.root, []⟩ = "src/lib.rs" := by decide
    have rust : (librarySource text).isManifest = false := by
      have path : (librarySource text).path = "src/lib.rs" := rfl
      rw [Source.isManifest, path]
      decide
    have scanned : scanSource settings (librarySource text)
        (testPathOf ⟨.root, []⟩ ⟨.root, libraryPlace⟩) =
          Scan.rustFile settings (librarySource text) none := by
      rw [scanSource, rust]
      rfl
    rw [scanFile_eq_ok, shown]
    refine ⟨text.toList, ?_, by rw [← scanned, librarySource]⟩
    rw [Disk.readText_eq_ok ⟨by decide, by decide⟩]
    refine ⟨List.not_mem_nil, _, rfl, ?_⟩
    rw [Text.decode_encode, Text.unifyLineFeeds_of_not_mem feeds]
  have whole : scansAt settings (.withLibrary text) "." =
      scansOf (scanFiles settings (.withLibrary text) ⟨.root, []⟩
        (discover (.withLibrary text) ⟨.root, []⟩ settings.excludedDirectories)) := rfl
  rw [whole, found, scanFiles, List.map_singleton, read]
  rfl

end Project

end CrateAudit

/-
This file compares a dry run with a run that writes while some files may not be written.
A write that fails takes the edits of its own file out of the report and the file out of
the list of repaired ones. It changes nothing else: what the report says of other files
and of violations left alone stays, and so does every file that the report does not list.
-/

import CrateAudit.Proofs.Outcomes
import CrateAudit.Proofs.ReadSettings

namespace CrateAudit.Project

variable {settings : Settings} {disk : Disk} {target : String}

/-- Whether a file of an audit may not be written. -/
def IsLocked (disk : Disk) (target file : String) : Prop :=
  (placeOf disk (disk.resolve (.ofText target)) file).names ∈ disk.unwritable

instance : DecidablePred (IsLocked disk target) := fun _ =>
  inferInstanceAs (Decidable (_ ∈ _))

/-- Nothing is made in a locked file, and all that is planned in any other one. -/
theorem madeFor_eq_ite {options : RepairOptions} (file : String) :
    madeFor settings disk target options file =
      if IsLocked disk target file then []
      else plannedFor settings disk target options file := rfl

/-- What is made in a file are the planned edits that are not of a locked file. -/
theorem madeFor_eq_filter {options : RepairOptions} (file : String) :
    madeFor settings disk target options file =
      (plannedFor settings disk target options file).filter
        fun edit => ¬IsLocked disk target edit.file := by
  rw [madeFor_eq_ite]
  split
  · rename_i locked
    refine (List.filter_eq_nil_iff.mpr fun edit member => ?_).symm
    rw [file_of_mem_plannedEdits member]
    simpa using locked
  · rename_i free
    refine (List.filter_eq_self.mpr fun edit member => ?_).symm
    rw [file_of_mem_plannedEdits member]
    simpa using free

/-- A file is made edits in exactly if some are planned and it is not locked. -/
theorem madeFor_ne_nil_iff {options : RepairOptions} {file : String} :
    madeFor settings disk target options file ≠ [] ↔
      ¬IsLocked disk target file ∧ plannedFor settings disk target options file ≠ [] := by
  rw [madeFor_eq_ite]
  split <;> simp_all

/-- A place shows what it did before a run that writes, unless it is that of a repaired file. -/
theorem view_repair_of_not_repaired {options : RepairOptions} (sound : disk.isSound = true)
    (wet : options.dryRun = false) {place : List String}
    (apart : ∀ file ∈ (repair settings disk target options).repair.files,
      (placeOf disk (disk.resolve (.ofText target)) file).names ≠ place) :
    (repair settings disk target options).disk.tree.view place = disk.tree.view place := by
  have untouched : (writesOf settings disk target options).lookup place = none := by
    rw [Option.eq_none_iff_forall_ne_some]
    intro bytes found
    obtain ⟨file, member, filled, here, _⟩ := (lookup_writesOf_eq_some sound).mp found
    refine apart file ?_ here
    rw [(repair_of_wet settings target sound wet).2.2.1, List.mem_filter, decide_eq_true_eq]
    exact ⟨member, filled⟩
  rw [view_repair sound wet, untouched]

/-- A run that writes reports what a dry run does but for the edits and names of locked files. The
dry run changes nothing on the disk, and the other run no file but those that it lists. -/
theorem repair_of_locked (settings : Settings) (target : String) (sound : disk.isSound = true)
    (only skip : List Kind) :
    let dry := repair settings disk target ⟨only, skip, true⟩
    let wet := repair settings disk target ⟨only, skip, false⟩
    wet.repair.edits = dry.repair.edits.filter (fun edit => ¬IsLocked disk target edit.file) ∧
      wet.repair.files = dry.repair.files.filter (fun file => ¬IsLocked disk target file) ∧
      wet.repair.skipped = dry.repair.skipped ∧
      dry.disk = disk ∧
      ∀ place, (∀ file ∈ wet.repair.files,
          (placeOf disk (disk.resolve (.ofText target)) file).names ≠ place) →
        wet.disk.tree.view place = disk.tree.view place := by
  intro dry wet
  let options : RepairOptions := ⟨only, skip, false⟩
  have planned : plannedEdits (Project.audit settings disk target).2
      (chosenViolations settings disk target ⟨only, skip, true⟩) =
        plannedFor settings disk target options := rfl
  have isDry : (RepairOptions.mk only skip true).dryRun = true := rfl
  have isWet : options.dryRun = false := rfl
  obtain ⟨sameDisk, dryEdits, dryFiles⟩ := repair_of_dryRun settings disk target isDry
  obtain ⟨_, wetEdits, wetFiles, _⟩ := repair_of_wet settings target sound isWet
  rw [planned] at dryEdits dryFiles
  refine ⟨?_, ?_, ?_, sameDisk, fun place => view_repair_of_not_repaired sound rfl⟩
  · rw [dryEdits, wetEdits, List.filter_flatMap]
    exact congrArg (List.flatMap · _) (funext madeFor_eq_filter)
  · rw [dryFiles, wetFiles, List.filter_filter]
    refine List.filter_congr fun file _ => ?_
    rw [← Bool.decide_and, decide_eq_decide]
    exact madeFor_ne_nil_iff
  · rw [skipped_repair, skipped_repair]
    rfl

/-- A library with a call that can be replaced, in a file that may not be written. -/
def lockedLibrary : Disk :=
  { Disk.withLibrary "fn f(a: Option<u8>) -> Option<u8> \x7b\n    Some(a.unwrap())\n\x7d\n" with
    unwritable := [libraryPlace] }

theorem repair_of_locked_lockedLibrary :
    let dry := repair .standard lockedLibrary "." ⟨[], [], true⟩
    let wet := repair .standard lockedLibrary "." ⟨[], [], false⟩
    lockedLibrary.isSound = true ∧ dry.repair.files = ["src/lib.rs"] ∧
      wet.repair.edits =
        dry.repair.edits.filter (fun edit => ¬IsLocked lockedLibrary "." edit.file) ∧
      wet.repair.files =
        dry.repair.files.filter (fun file => ¬IsLocked lockedLibrary "." file) ∧
      wet.repair.skipped = dry.repair.skipped ∧
      dry.disk = lockedLibrary ∧
      ∀ place, (∀ file ∈ wet.repair.files,
          (placeOf lockedLibrary (lockedLibrary.resolve (.ofText ".")) file).names ≠ place) →
        wet.disk.tree.view place = lockedLibrary.tree.view place := by
  intro dry wet
  have sound : lockedLibrary.isSound = true := by decide
  exact ⟨sound, by decide +kernel, repair_of_locked .standard "." sound [] []⟩

end CrateAudit.Project

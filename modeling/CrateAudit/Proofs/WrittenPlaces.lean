/-
This file says that a repair writes where it read. A path below a root is shown by the
rest of it, and the root with that rest is the path again. So the name of a file, which
is all that is kept of its path while its violations are collected and its edits are
planned, leads back to the one path that was read for it. The calls that write are listed
as a run makes them, whether or not they succeed, and the disk that the run leaves is
what these calls make of the disk it found.
-/

import CrateAudit.Proofs.Outcomes
import CrateAudit.Proofs.ReadSettings

namespace CrateAudit

/-! ### Paths as texts -/

namespace Path

/-- The path without repeated slashes and without dots for the same directory. -/
def normalText (text : String) : String :=
  (ofText text).text

/-- Two paths one after the other. -/
def joinText (root rest : String) : String :=
  (join [ofText root, ofText rest]).text

/-- How a path is shown below a root. -/
def shownText (path root : String) : String :=
  (ofText path).shownBelow (ofText root)

/-- The path has the names of the root and more. -/
def LiesBelow (path root : String) : Prop :=
  ∃ names, names ≠ [] ∧ ofText path = ⟨(ofText root).start, (ofText root).names ++ names⟩

theorem here_append (path : Path) : here.append path = path := by
  obtain ⟨start, names⟩ := path
  cases start <;> rfl

theorem join_pair (first second : Path) : join [first, second] = first.append second := by
  rw [join, List.foldl_cons, List.foldl_cons, List.foldl_nil, here_append]

theorem held_append {first second : Path} (held : ∀ name ∈ first.names, isPathName name = true)
    (held' : ∀ name ∈ second.names, isPathName name = true) :
    ∀ name ∈ (first.append second).names, isPathName name = true := by
  rw [append]
  split
  · exact fun name member => (List.mem_append.mp member).elim (held name) (held' name)
  · exact held'

/-- A path below a root is the root with what is shown of the path. -/
theorem joinText_shownText {path root : String} (below : LiesBelow path root) :
    joinText root (shownText path root) = normalText path := by
  obtain ⟨names, nonempty, whole⟩ := below
  have held : ∀ name ∈ names, isPathName name = true := fun name member => by
    have own : name ∈ (ofText path).names := by
      rw [whole]
      exact List.mem_append_right _ member
    exact isPathName_of_mem_ofText own
  have shown : shownText path root = text ⟨.relative, names⟩ := by
    rw [shownText, whole]
    exact Project.shownName_append (ofText root) nonempty
  rw [joinText, join_pair, shown, ofText_text held, normalText, whole]
  rfl

/-- No two paths below a root are shown alike. -/
theorem normalText_eq_of_shownText {path path' root : String} (below : LiesBelow path root)
    (below' : LiesBelow path' root) (same : shownText path root = shownText path' root) :
    normalText path = normalText path' := by
  rw [← joinText_shownText below, ← joinText_shownText below', same]

end Path

/-- What a path leads to from the working directory has names that a path can hold. -/
theorem Disk.held_resolve {disk : Disk} (sound : disk.isSound = true) (text : String) :
    ∀ name ∈ (disk.resolve (.ofText text)).names, Path.isPathName name = true := by
  rw [isSound, Bool.and_eq_true, List.all_eq_true] at sound
  have working : ∀ name ∈ disk.workingDirectory, Path.isPathName name = true :=
    fun name member => Path.isPathName_of_isProperName (sound.2 name member)
  have empty : ∀ name ∈ ([] : List String), Path.isPathName name = true :=
    fun _ member => absurd member List.not_mem_nil
  have own : ∀ name ∈ (Path.ofText text).names, name ≠ ".." → Path.isPathName name = true :=
    fun _ member _ => Path.isPathName_of_mem_ofText member
  rw [resolve, Path.resolve]
  cases (Path.ofText text).start with
  | relative => exact Path.forall_mem_follow working own
  | root => exact Path.forall_mem_follow empty own
  | doubleRoot => exact Path.forall_mem_follow empty own

namespace Project

/-! ### The calls that write -/

/-- A call that puts a text where a path leads, for a file of an audit. -/
structure Writing where
  file : String
  path : Path
  text : List Char

/-- The disk after the call. A call that fails changes nothing. -/
def Writing.perform (disk : Disk) (writing : Writing) : Disk :=
  match disk.writeText writing.path writing.text with
  | .error _ => disk
  | .ok after => after

/-- The call that is made for the edits of a file: none in a dry run, or without edits. -/
def writingFor? (place : Path) (source : Source) (edits : List Fix.Edit) (run : RepairRun) :
    Option Writing :=
  if edits.isEmpty || run.repair.dryRun then none
  else some ⟨source.path, place, repairedText source edits⟩

/-- The calls that are made while one file after another is repaired. -/
def writingsFrom (root : Path) (audit : Audit) (violations : List Violation) :
    List String → RepairRun → List Writing
  | [], _ => []
  | file :: rest, run =>
    match Analysis.sourceOf? audit.sources file with
    | none => writingsFrom root audit violations rest run
    | some source =>
      let place := placeOf run.disk root file
      let own := violations.filter (·.file == file)
      (writingFor? place source (Fix.planFile source own).edits run).toList ++
        writingsFrom root audit violations rest (repairFile place source own run)

variable {root : Path} {audit : Audit} {violations : List Violation}

theorem disk_writeEdits (place : Path) (source : Source) (edits : List Fix.Edit)
    (run : RepairRun) :
    (writeEdits place source edits run).disk =
      (writingFor? place source edits run).toList.foldl Writing.perform run.disk := by
  rw [writeEdits, writingFor?]
  cases edits.isEmpty with
  | true => rfl
  | false =>
    cases run.repair.dryRun with
    | true => rfl
    | false =>
      simp only [Bool.false_eq_true, if_false, Bool.or_false, Option.toList_some, List.foldl_cons,
        List.foldl_nil, Writing.perform]
      cases run.disk.writeText place (repairedText source edits) <;> rfl

/-- Nothing but the calls changes the disk. -/
theorem disk_repairFiles {files : List String} {run : RepairRun} :
    (repairFiles root audit violations files run).disk =
      (writingsFrom root audit violations files run).foldl Writing.perform run.disk := by
  induction files generalizing run with
  | nil => rfl
  | cons file rest inductionHypothesis =>
    rw [repairFiles, writingsFrom]
    cases Analysis.sourceOf? audit.sources file with
    | none => exact inductionHypothesis
    | some source =>
      simp only
      rw [inductionHypothesis, List.foldl_append, repairFile, disk_writeEdits]
      rfl

/-! ### The calls of a run -/

/-- The call that is planned for a file. -/
def plannedWriting? (disk : Disk) (root : Path) (audit : Audit) (violations : List Violation)
    (file : String) : Option Writing :=
  match Analysis.sourceOf? audit.sources file with
  | none => none
  | some source =>
    if plannedEdits audit violations file = [] then none
    else some ⟨file, placeOf disk root file,
      repairedText source (plannedEdits audit violations file)⟩

/-- What the call that is planned for a file does. -/
theorem exists_source_of_plannedWriting? {disk : Disk} {file : String} {writing : Writing}
    (planned : plannedWriting? disk root audit violations file = some writing) :
    writing.file = file ∧ writing.path = placeOf disk root file ∧
      ∃ source, Analysis.sourceOf? audit.sources file = some source ∧
        writing.text = repairedText source (plannedEdits audit violations file) := by
  rw [plannedWriting?] at planned
  split at planned
  · cases planned
  · rename_i source kept
    split at planned
    · cases planned
    · cases planned
      exact ⟨rfl, rfl, source, kept, rfl⟩

theorem writingsFrom_of_dryRun {files : List String} {run : RepairRun}
    (dry : run.repair.dryRun = true) : writingsFrom root audit violations files run = [] := by
  induction files generalizing run with
  | nil => rfl
  | cons file rest inductionHypothesis =>
    rw [writingsFrom]
    cases Analysis.sourceOf? audit.sources file with
    | none => exact inductionHypothesis dry
    | some source =>
      have none : writingFor? (placeOf run.disk root file) source
          (Fix.planFile source (violations.filter (·.file == file))).edits run = none := by
        rw [writingFor?, dry, Bool.or_true, if_pos rfl]
      simp only
      rw [none, Option.toList_none, List.nil_append]
      refine inductionHypothesis ?_
      rw [repairFile]
      refine (writeEdits_of_dryRun _ source _ ?_).1
      exact dry

/-- A run that writes makes the call planned for each file, if all of them stand. -/
theorem writingsFrom_of_wet {disk : Disk} {files : List String} {run : RepairRun}
    (plain : root.IsPlain) (stand : AllStand disk root files)
    (wet : run.repair.dryRun = false) (resembles : Resembles disk run.disk) :
    writingsFrom root audit violations files run =
      files.filterMap (plannedWriting? disk root audit violations) := by
  induction files generalizing run with
  | nil => rfl
  | cons file rest inductionHypothesis =>
    have standHere : AllStand disk root [file] := stand.of_subset (by simp)
    have standRest : AllStand disk root rest := stand.of_subset (List.subset_cons_self file rest)
    rw [writingsFrom]
    cases kept : Analysis.sourceOf? audit.sources file with
    | none =>
      rw [List.filterMap_cons, plannedWriting?, kept]
      exact inductionHypothesis standRest wet resembles
    | some source =>
      have first : Repairs disk root audit violations [file] run _ :=
        repairs_repairFile plain standHere kept wet resembles
      have own : writingFor? (placeOf run.disk root file) source
          (Fix.planFile source (violations.filter (·.file == file))).edits run =
            plannedWriting? disk root audit violations file := by
        rw [writingFor?, plannedWriting?, kept, wet, Bool.or_false, resembles.placeOf plain,
          (Analysis.sourceOf?_eq_some kept).2, plannedEdits, kept]
        simp only [List.isEmpty_iff]
      simp only
      rw [own, inductionHypothesis standRest first.wet (first.resembles standHere resembles),
        List.filterMap_cons]
      cases plannedWriting? disk root audit violations file <;> rfl

variable {settings : Settings} {disk : Disk} {target : String} {options : RepairOptions}

/-- The calls that a repair makes to write. -/
def writingsOf (settings : Settings) (disk : Disk) (target : String) (options : RepairOptions) :
    List Writing :=
  writingsFrom (disk.resolve (.ofText target)) (Project.audit settings disk target).2
    (chosenViolations settings disk target options)
    (repairFilesOf settings disk target options) (startOf settings disk target options)

theorem disk_repair : (repair settings disk target options).disk =
    (writingsOf settings disk target options).foldl Writing.perform disk :=
  disk_repairFiles

/-- A dry run makes no call; any other run makes those that are planned. -/
theorem writingsOf_eq (sound : disk.isSound = true) :
    writingsOf settings disk target options =
      if options.dryRun then [] else
        (repairFilesOf settings disk target options).filterMap
          (plannedWriting? disk (disk.resolve (.ofText target))
            (Project.audit settings disk target).2
            (chosenViolations settings disk target options)) := by
  split
  · rename_i dry
    exact writingsFrom_of_dryRun dry
  · rename_i wet
    exact writingsFrom_of_wet (Disk.isPlain_resolve sound _)
      (allStand_filesToRepair sound options) (Bool.not_eq_true _ ▸ wet) (.refl disk)

/-! ### Where the calls go -/

/-- The name of a file that was scanned leads to the path that was read for it. -/
theorem placeOf_of_scanFile (sound : disk.isSound = true) {path : Path} {scan : FileScan}
    (found : path ∈ discover disk (disk.resolve (.ofText target)) settings.excludedDirectories)
    (scanned : scanFile settings disk (disk.resolve (.ofText target)) path = .ok scan) :
    placeOf disk (disk.resolve (.ofText target)) scan.source.path = path := by
  have plain := Disk.isPlain_resolve sound (.ofText target)
  obtain ⟨start, plainPath, below⟩ := isBelow_of_mem_discover sound plain found
  obtain ⟨content, read, rfl⟩ := scanFile_eq_ok.mp scanned
  obtain ⟨_, bytes, stands, _⟩ := (Disk.readText_eq_ok plainPath).mp read
  obtain ⟨start', names⟩ := path
  cases start
  exact placeOf_shownName sound plain below stands

/-- The call goes to the one path that was read for its file, with the text that the planned edits
make of what was read there. Below a directory the path is the directory with the name of the
file; where the target is a file it is the target. -/
structure Writing.GoesWhereRead (settings : Settings) (disk : Disk) (root : Path)
    (planned : String → List Fix.Edit) (writing : Writing) : Prop where
  found : writing.path ∈ discover disk root settings.excludedDirectories
  scanned : ∃ scan, scanFile settings disk root writing.path = .ok scan ∧
    scan.source.path = writing.file ∧
    writing.text = repairedText scan.source (planned writing.file)
  only : ∀ path ∈ discover disk root settings.excludedDirectories, ∀ scan,
    scanFile settings disk root path = .ok scan → scan.source.path = writing.file →
      path = writing.path
  below : disk.holdsDirectory root = true →
    writing.path.text = Path.joinText root.text writing.file ∧
      writing.file = Path.shownText writing.path.text root.text
  single : disk.holdsDirectory root = false → writing.path = root

/-- The file of a call is named by what is shown of its path. -/
theorem Writing.GoesWhereRead.file_eq {planned : String → List Fix.Edit} {writing : Writing}
    (goes : writing.GoesWhereRead settings disk root planned) :
    writing.file = writing.path.shownBelow root := by
  obtain ⟨scan, scanned, file, _⟩ := goes.scanned
  obtain ⟨content, _, rfl⟩ := scanFile_eq_ok.mp scanned
  exact file.symm

theorem goesWhereRead_of_mem_writingsOf (sound : disk.isSound = true) {writing : Writing}
    (member : writing ∈ writingsOf settings disk target options) :
    writing.GoesWhereRead settings disk (disk.resolve (.ofText target))
      (plannedFor settings disk target options) := by
  obtain ⟨placed, source, kept, text⟩ : writing.path =
      placeOf disk (disk.resolve (.ofText target)) writing.file ∧
        ∃ source, Analysis.sourceOf? (Project.audit settings disk target).2.sources writing.file =
            some source ∧
          writing.text =
            repairedText source (plannedFor settings disk target options writing.file) := by
    rw [writingsOf_eq sound] at member
    split at member
    · cases member
    · obtain ⟨file, _, made⟩ := List.mem_filterMap.mp member
      obtain ⟨rfl, placed, planned⟩ := exists_source_of_plannedWriting? made
      exact ⟨placed, planned⟩
  obtain ⟨inside, named⟩ := Analysis.sourceOf?_eq_some kept
  rw [audit_eq, Audit.mem_sources_ofScans] at inside
  obtain ⟨scan, scannedAt, _, rfl⟩ := inside
  obtain ⟨path, found, scanned⟩ := mem_scansOf.mp scannedAt
  have here : writing.path = path := by
    rw [placed, ← named]
    exact placeOf_of_scanFile sound found scanned
  have shown : scan.source.path = path.shownBelow (disk.resolve (.ofText target)) := by
    obtain ⟨content, _, rfl⟩ := scanFile_eq_ok.mp scanned
    rfl
  have root := Path.ofText_text (Disk.held_resolve sound target)
  refine ⟨here ▸ found, ⟨scan, here ▸ scanned, named, text⟩, ?_, fun isDirectory => ?_,
    fun isFile => ?_⟩
  · intro path' found' scan' scanned' named'
    rw [placed, ← named']
    exact (placeOf_of_scanFile sound found' scanned').symm
  · rw [placeOf, if_pos isDirectory] at placed
    have own : Path.ofText writing.path.text = writing.path := by
      rw [placed]
      exact Path.ofText_text (Path.held_append (Disk.held_resolve sound target)
        fun _ member' => Path.isPathName_of_mem_ofText member')
    rw [Path.shownText, own, root, Path.joinText, Path.join_pair, root, ← placed, here, ← shown]
    exact ⟨rfl, named.symm⟩
  · rw [placed, placeOf, isFile, if_neg Bool.false_ne_true]

theorem nodup_files_writingsOf (sound : disk.isSound = true) :
    ((writingsOf settings disk target options).map (·.file)).Nodup := by
  rw [writingsOf_eq sound]
  split
  · exact List.nodup_nil
  · rw [List.Nodup, List.pairwise_map, List.pairwise_filterMap]
    refine (nodup_filesToRepair _).imp fun apart writing made writing' made' => ?_
    rw [(exists_source_of_plannedWriting? made).1, (exists_source_of_plannedWriting? made').1]
    exact apart

/-- No path is written twice. -/
theorem nodup_paths_writingsOf (sound : disk.isSound = true) :
    ((writingsOf settings disk target options).map (·.path)).Nodup := by
  have files : ((writingsOf settings disk target options).map (·.file)).Nodup :=
    nodup_files_writingsOf sound
  rw [List.Nodup, List.pairwise_map] at files ⊢
  refine files.imp_of_mem fun member member' apart same => apart ?_
  rw [(goesWhereRead_of_mem_writingsOf sound member).file_eq,
    (goesWhereRead_of_mem_writingsOf sound member').file_eq, same]

/-- A path below a root is the root with what is shown of it, and no two are shown alike. So each
call of a repair to write goes where the source of its file was read, and no two go to one path.
The disk is changed by these calls only. -/
theorem repair_writes_where_read :
    (∀ root path, Path.LiesBelow path root →
      Path.joinText root (Path.shownText path root) = Path.normalText path) ∧
    (∀ root path path', Path.LiesBelow path root → Path.LiesBelow path' root →
      Path.shownText path root = Path.shownText path' root →
        Path.normalText path = Path.normalText path') ∧
    ∀ settings disk target options, disk.isSound = true →
      let writings := writingsOf settings disk target options
      (repair settings disk target options).disk = writings.foldl Writing.perform disk ∧
        (writings.map (·.path)).Nodup ∧
        ∀ writing ∈ writings, writing.GoesWhereRead settings disk
          (disk.resolve (.ofText target)) (plannedFor settings disk target options) :=
  ⟨fun _ _ => Path.joinText_shownText, fun _ _ _ => Path.normalText_eq_of_shownText,
    fun _ _ _ _ sound => ⟨disk_repair, nodup_paths_writingsOf sound,
      fun _ => goesWhereRead_of_mem_writingsOf sound⟩⟩

/-- A library with a call that can be replaced. -/
def unwrappingLibrary : Disk :=
  .withLibrary "fn f(a: Option<u8>) -> Option<u8> \x7b\n    Some(a.unwrap())\n\x7d\n"

theorem repair_writes_where_read_unwrappingLibrary :
    (Path.LiesBelow "//work/a:b/.." "//work" ∧ Path.LiesBelow "//work//a:b/./.." "//work" ∧
      Path.joinText "//work" (Path.shownText "//work/a:b/.." "//work") = "//work/a:b/.." ∧
      Path.normalText "//work/a:b/.." = Path.normalText "//work//a:b/./..") ∧
    unwrappingLibrary.isSound = true ∧
    ∀ target ∈ ["src", "src/lib.rs"],
      let writings := writingsOf .standard unwrappingLibrary target ⟨[], [], false⟩
      writings.map (·.path.text) = ["/src/lib.rs"] ∧
        ∀ writing ∈ writings, writing.GoesWhereRead .standard unwrappingLibrary
          (unwrappingLibrary.resolve (.ofText target))
          (plannedFor .standard unwrappingLibrary target ⟨[], [], false⟩) := by
  have below : Path.LiesBelow "//work/a:b/.." "//work" :=
    ⟨["a:b", ".."], by decide, by decide⟩
  have below' : Path.LiesBelow "//work//a:b/./.." "//work" :=
    ⟨["a:b", ".."], by decide, by decide⟩
  have sound : unwrappingLibrary.isSound = true := by decide
  obtain ⟨joined, injective, run⟩ := repair_writes_where_read
  have normal : Path.normalText "//work/a:b/.." = "//work/a:b/.." := by decide
  refine ⟨⟨below, below', (joined _ _ below).trans normal,
    injective "//work" _ _ below below' (by decide)⟩, sound, fun target member => ?_⟩
  have written : ∀ target ∈ ["src", "src/lib.rs"],
      (writingsOf .standard unwrappingLibrary target ⟨[], [], false⟩).map (·.path.text) =
        ["/src/lib.rs"] := by decide +kernel
  exact ⟨written target member, (run _ _ target ⟨[], [], false⟩ sound).2.2⟩

end Project

end CrateAudit

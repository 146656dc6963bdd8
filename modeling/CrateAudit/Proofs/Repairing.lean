/-
This file says what a repair does as a whole: it makes the edits planned for each file
with violations, and writes each file that it edits once. A dry run counts the same
edits and writes nothing. A file that may not be written keeps its text, is told of,
and its edits do not count.
-/

import CrateAudit.Proofs.Disks
import CrateAudit.Proofs.Findings
import CrateAudit.Proofs.Planning
import CrateAudit.Proofs.Tallies
import CrateAudit.Project.Fixing

namespace CrateAudit

/-! ### Writing several files -/

namespace Tree

/-- Puts files at places, one after another. -/
def setAll : List (List String × Bytes) → Tree → Tree
  | [], tree => tree
  | (place, bytes) :: rest, tree => setAll rest (set (.file bytes) place tree)

/-- Which places hold files and which directories. -/
def SameShape (first second : Tree) : Prop :=
  ∀ place, (first.view place).map Option.isSome = (second.view place).map Option.isSome

theorem SameShape.refl (tree : Tree) : tree.SameShape tree := fun _ => rfl

theorem SameShape.trans {first second third : Tree} (same : first.SameShape second)
    (same' : second.SameShape third) : first.SameShape third :=
  fun place => (same place).trans (same' place)

theorem sameShape_set_file {tree : Tree} {place : List String} {old : Bytes}
    (stands : tree.view place = some (some old)) (new : Bytes) :
    (set (.file new) place tree).SameShape tree := by
  intro other
  rw [view_set_file stands]
  split
  · rename_i same
    rw [same, stands]
    rfl
  · rfl

theorem SameShape.directory_iff {first second : Tree} (same : first.SameShape second)
    (place : List String) : first.view place = some none ↔ second.view place = some none := by
  have here := same place
  cases shown : first.view place <;> cases shown' : second.view place <;>
    rw [shown, shown'] at here <;> simp at here ⊢
  rename_i what what'
  cases what <;> cases what' <;> simp_all

/-- A file stands where one stood. -/
theorem SameShape.exists_file {first second : Tree} (same : first.SameShape second)
    {place : List String} {bytes : Bytes} (stands : second.view place = some (some bytes)) :
    ∃ own, first.view place = some (some own) := by
  have here := same place
  rw [stands] at here
  cases shown : first.view place with
  | none => simp [shown] at here
  | some what =>
    cases what with
    | none => simp [shown] at here
    | some own => exact ⟨own, rfl⟩

/-- Files put where files stand change no shape. -/
theorem sameShape_setAll {tree : Tree} {writes : List (List String × Bytes)}
    (stand : ∀ write ∈ writes, ∃ old, tree.view write.1 = some (some old)) :
    (setAll writes tree).SameShape tree := by
  induction writes generalizing tree with
  | nil => exact .refl _
  | cons write rest inductionHypothesis =>
    obtain ⟨place, bytes⟩ := write
    obtain ⟨old, here⟩ := stand _ List.mem_cons_self
    have shape := sameShape_set_file here bytes
    rw [setAll]
    refine (inductionHypothesis fun other member => ?_).trans shape
    obtain ⟨own, there⟩ := stand other (List.mem_cons_of_mem _ member)
    exact shape.exists_file there

/-- Files put at different places show their bytes, and every other place what it did. -/
theorem view_setAll {tree : Tree} {writes : List (List String × Bytes)}
    (stand : ∀ write ∈ writes, ∃ old, tree.view write.1 = some (some old))
    (distinct : (writes.map (·.1)).Nodup) (place : List String) :
    (setAll writes tree).view place =
      match writes.lookup place with
      | some bytes => some (some bytes)
      | none => tree.view place := by
  induction writes generalizing tree with
  | nil => rfl
  | cons write rest inductionHypothesis =>
    obtain ⟨own, bytes⟩ := write
    rw [List.map_cons, List.nodup_cons] at distinct
    obtain ⟨old, here⟩ := stand _ List.mem_cons_self
    have later : ∀ other ∈ rest, ∃ old,
        (set (.file bytes) own tree).view other.1 = some (some old) := fun other member => by
      obtain ⟨own', there⟩ := stand other (List.mem_cons_of_mem _ member)
      exact (sameShape_set_file here bytes).exists_file there
    rw [setAll, inductionHypothesis later distinct.2, List.lookup_cons]
    by_cases same : place = own
    · have apart : rest.lookup own = none := by
        rw [List.lookup_eq_none_iff]
        intro entry member
        rw [bne_iff_ne]
        exact fun same => distinct.1 (List.mem_map.mpr ⟨entry, member, same.symm⟩)
      rw [same, apart, beq_self_eq_true]
      simp only
      rw [view_set_file here, if_pos rfl]
    · rw [beq_false_of_ne same]
      simp only
      rw [view_set_file here, if_neg same]

end Tree

namespace Project

/-! ### What is planned for the files of an audit -/

/-- The edits planned for a file. -/
def plannedEdits (audit : Audit) (violations : List Violation) (file : String) :
    List Fix.Edit :=
  match Analysis.sourceOf? audit.sources file with
  | none => []
  | some source => (Fix.planFile source (violations.filter (·.file == file))).edits

/-- The violations of a file that are planned to be left alone. -/
def plannedSkips (audit : Audit) (violations : List Violation) (file : String) :
    List Fix.Skipped :=
  match Analysis.sourceOf? audit.sources file with
  | none => []
  | some source => (Fix.planFile source (violations.filter (·.file == file))).skipped

/-- The bytes of a file after the edits planned for it. -/
def repairedBytes (audit : Audit) (violations : List Violation) (file : String) : Bytes :=
  match Analysis.sourceOf? audit.sources file with
  | none => []
  | some source => Text.encode (repairedText source (plannedEdits audit violations file))

/-- The edits that are made in a file: those planned, if the file may be written. -/
def madeEdits (disk : Disk) (root : Path) (audit : Audit) (violations : List Violation)
    (file : String) : List Fix.Edit :=
  if (placeOf disk root file).names ∈ disk.unwritable then []
  else plannedEdits audit violations file

/-- What is written for a file, and where. -/
def write? (disk : Disk) (root : Path) (audit : Audit) (violations : List Violation)
    (file : String) : Option (List String × Bytes) :=
  if madeEdits disk root audit violations file = [] then none
  else some ((placeOf disk root file).names, repairedBytes audit violations file)

variable {root : Path} {audit : Audit} {violations : List Violation}

/-! ### Violations that are left alone -/

/-- Nothing that is written changes which violations are left alone. -/
theorem skipped_writeEdits (place : Path) (source : Source) (edits : List Fix.Edit)
    (run : RepairRun) :
    (writeEdits place source edits run).repair.skipped = run.repair.skipped := by
  rw [writeEdits]
  split
  · rfl
  · split
    · rfl
    · split <;> rfl

/-- A run leaves alone what is planned so for each file, whether or not it writes, and whether or
not its writes succeed. -/
theorem skipped_repairFiles {files : List String} {run : RepairRun} :
    (repairFiles root audit violations files run).repair.skipped =
      run.repair.skipped ++ files.flatMap (plannedSkips audit violations) := by
  induction files generalizing run with
  | nil => simp [repairFiles]
  | cons file rest inductionHypothesis =>
    rw [repairFiles, List.flatMap_cons, plannedSkips]
    cases Analysis.sourceOf? audit.sources file with
    | none => exact inductionHypothesis
    | some source =>
      rw [inductionHypothesis, repairFile, skipped_writeEdits, ← List.append_assoc]
      rfl

/-! ### Dry runs -/

theorem writeEdits_of_dryRun (place : Path) (source : Source) (edits : List Fix.Edit)
    {run : RepairRun} (dry : run.repair.dryRun = true) :
    (writeEdits place source edits run).repair.dryRun = true ∧
      (writeEdits place source edits run).disk = run.disk ∧
      (writeEdits place source edits run).repair.edits = run.repair.edits ++ edits ∧
      (writeEdits place source edits run).repair.files =
        run.repair.files ++ if edits = [] then [] else [source.path] := by
  rw [writeEdits]
  split
  · rename_i none
    rw [List.isEmpty_iff.mp none, List.append_nil, if_pos rfl, List.append_nil]
    exact ⟨dry, rfl, rfl, rfl⟩
  · rename_i some
    rw [if_neg fun none => some (List.isEmpty_iff.mpr none)]
    exact ⟨dry, rfl, rfl, rfl⟩

/-- A dry run counts all edits that are planned and the files that they are in, and leaves the
disk as it is. -/
theorem repairFiles_of_dryRun {files : List String} {run : RepairRun}
    (dry : run.repair.dryRun = true) :
    (repairFiles root audit violations files run).disk = run.disk ∧
      (repairFiles root audit violations files run).repair.edits =
        run.repair.edits ++ files.flatMap (plannedEdits audit violations) ∧
      (repairFiles root audit violations files run).repair.files =
        run.repair.files ++ files.filter fun file => plannedEdits audit violations file ≠ [] := by
  induction files generalizing run with
  | nil => simp [repairFiles]
  | cons file rest inductionHypothesis =>
    rw [repairFiles, List.flatMap_cons, List.filter_cons]
    cases kept : Analysis.sourceOf? audit.sources file with
    | none =>
      have nothing : plannedEdits audit violations file = [] := by rw [plannedEdits, kept]
      rw [nothing, List.nil_append]
      exact inductionHypothesis dry
    | some source =>
      have planned : plannedEdits audit violations file =
          (Fix.planFile source (violations.filter (·.file == file))).edits := by
        rw [plannedEdits, kept]
      simp only
      rw [repairFile, planned]
      generalize Fix.planFile source (violations.filter (·.file == file)) = plan
      generalize started : (run.recordSkipped plan.skipped).tell (plan.edits.map fun edit =>
        .planned edit.file edit.line edit.description) = start
      have same : start.repair.dryRun = run.repair.dryRun ∧ start.disk = run.disk ∧
          start.repair.edits = run.repair.edits ∧ start.repair.files = run.repair.files := by
        rw [← started]
        exact ⟨rfl, rfl, rfl, rfl⟩
      obtain ⟨stays, disk, edits, files⟩ := writeEdits_of_dryRun (placeOf run.disk root file)
        source plan.edits (same.1.trans dry)
      rw [same.2.1] at disk
      rw [same.2.2.1] at edits
      rw [same.2.2.2, (Analysis.sourceOf?_eq_some kept).2] at files
      obtain ⟨disk', edits', files'⟩ := inductionHypothesis stays
      rw [disk', edits', files', disk, edits, files, List.append_assoc, List.append_assoc]
      refine ⟨rfl, rfl, ?_⟩
      by_cases none : plan.edits = [] <;> simp [none]

/-! ### Runs that write -/

/-- What can become of a file: it has no edits, or may not be written and is told of, or is
written and its edits count. -/
theorem writeEdits_cases (source : Source) (edits : List Fix.Edit) {place : Path}
    {run : RepairRun} {old : Bytes} (plain : place.IsPlain)
    (stands : run.disk.tree.view place.names = some (some old))
    (wet : run.repair.dryRun = false) :
    let after := writeEdits place source edits run
    after.repair.dryRun = false ∧ (∀ notice ∈ run.notices, notice ∈ after.notices) ∧
      ((edits = [] ∧ after.disk = run.disk ∧ after.repair.edits = run.repair.edits ∧
          after.repair.files = run.repair.files) ∨
        (edits ≠ [] ∧ place.names ∈ run.disk.unwritable ∧ after.disk = run.disk ∧
          after.repair.edits = run.repair.edits ∧ after.repair.files = run.repair.files ∧
          .repairFailed source.path .readOnly ∈ after.notices) ∨
        (edits ≠ [] ∧ place.names ∉ run.disk.unwritable ∧
          after.disk = { run.disk with
            tree := Tree.set (.file (Text.encode (repairedText source edits))) place.names
              run.disk.tree } ∧
          after.repair.edits = run.repair.edits ++ edits ∧
          after.repair.files = run.repair.files ++ [source.path])) := by
  have told (more : List Notice) : ∀ notice ∈ run.notices, notice ∈ run.notices ++ more :=
    fun _ member => List.mem_append_left more member
  rw [writeEdits]
  split
  · rename_i none
    exact ⟨wet, fun _ member => member, Or.inl ⟨List.isEmpty_iff.mp none, rfl, rfl, rfl⟩⟩
  · rename_i some
    have filled : edits ≠ [] := fun none => some (List.isEmpty_iff.mpr none)
    rw [wet, if_neg Bool.false_ne_true,
      Disk.writeText_of_file plain stands (repairedText source edits)]
    by_cases forbidden : place.names ∈ run.disk.unwritable
    · rw [if_pos forbidden]
      exact ⟨wet, told _, Or.inr (Or.inl ⟨filled, forbidden, rfl, rfl, rfl,
        List.mem_append_right _ List.mem_cons_self⟩)⟩
    · rw [if_neg forbidden]
      exact ⟨wet, told _, Or.inr (Or.inr ⟨filled, forbidden, rfl, rfl, rfl⟩)⟩

/-- A disk on which files may have been written since. -/
structure Resembles (disk current : Disk) : Prop where
  workingDirectory : current.workingDirectory = disk.workingDirectory
  unreadable : current.unreadable = disk.unreadable
  unwritable : current.unwritable = disk.unwritable
  shape : current.tree.SameShape disk.tree

theorem Resembles.refl (disk : Disk) : Resembles disk disk :=
  ⟨rfl, rfl, rfl, .refl _⟩

theorem Resembles.holdsDirectory {disk current : Disk} (resembles : Resembles disk current)
    {path : Path} (plain : path.IsPlain) :
    current.holdsDirectory path = disk.holdsDirectory path := by
  rw [Bool.eq_iff_iff, Disk.holdsDirectory_of_isPlain plain, Disk.holdsDirectory_of_isPlain plain]
  exact resembles.shape.directory_iff path.names

theorem Resembles.placeOf {disk current : Disk} (resembles : Resembles disk current)
    (plain : root.IsPlain) (file : String) :
    Project.placeOf current root file = Project.placeOf disk root file := by
  rw [Project.placeOf, Project.placeOf, resembles.holdsDirectory plain]

/-- Files that stand on a disk, each at the place to which its name leads. -/
def AllStand (disk : Disk) (root : Path) (files : List String) : Prop :=
  ∀ file ∈ files, (placeOf disk root file).IsPlain ∧
    ∃ old, disk.tree.view (placeOf disk root file).names = some (some old)

theorem AllStand.of_subset {disk : Disk} {files others : List String}
    (stand : AllStand disk root files) (subset : others ⊆ files) : AllStand disk root others :=
  fun file member => stand file (subset member)

/-- What is written for files that stand goes to where files stand. -/
theorem AllStand.of_mem_writes {disk : Disk} {files : List String}
    (stand : AllStand disk root files) :
    ∀ write ∈ files.filterMap (write? disk root audit violations),
      ∃ old, disk.tree.view write.1 = some (some old) := by
  intro write member
  obtain ⟨file, inside, written⟩ := List.mem_filterMap.mp member
  rw [write?] at written
  split at written
  · cases written
  · cases written
    exact (stand file inside).2

/-- What a run that writes has done to some files since an earlier state of it: it has made the
edits of those that may be written, and told of each other one that it would have edited. -/
structure Repairs (disk : Disk) (root : Path) (audit : Audit) (violations : List Violation)
    (files : List String) (before after : RepairRun) : Prop where
  wet : after.repair.dryRun = false
  written : after.disk = { before.disk with
    tree := before.disk.tree.setAll (files.filterMap (write? disk root audit violations)) }
  edits : after.repair.edits =
    before.repair.edits ++ files.flatMap (madeEdits disk root audit violations)
  made : after.repair.files = before.repair.files ++
    files.filter fun file => madeEdits disk root audit violations file ≠ []
  told : ∀ notice ∈ before.notices, notice ∈ after.notices
  failed : ∀ file ∈ files, plannedEdits audit violations file ≠ [] →
    (placeOf disk root file).names ∈ disk.unwritable →
    .repairFailed file .readOnly ∈ after.notices

namespace Repairs

variable {disk : Disk} {file : String} {files : List String} {before middle after : RepairRun}

theorem nil (wet : before.repair.dryRun = false) :
    Repairs disk root audit violations [] before before :=
  ⟨wet, rfl, (List.append_nil _).symm, (List.append_nil _).symm, fun _ member => member,
    fun _ member => absurd member List.not_mem_nil⟩

theorem cons (first : Repairs disk root audit violations [file] before middle)
    (later : Repairs disk root audit violations files middle after) :
    Repairs disk root audit violations (file :: files) before after where
  wet := later.wet
  written := by
    rw [later.written, first.written, List.filterMap_cons, List.filterMap_cons]
    cases write? disk root audit violations file <;> rfl
  edits := by
    rw [later.edits, first.edits, List.append_assoc, ← List.flatMap_append]
    rfl
  made := by
    rw [later.made, first.made, List.append_assoc, ← List.filter_append]
    rfl
  told notice member := later.told notice (first.told notice member)
  failed other member filled forbidden := by
    rcases List.mem_cons.mp member with rfl | inside
    · exact later.told _ (first.failed other List.mem_cons_self filled forbidden)
    · exact later.failed other inside filled forbidden

/-- A file in which nothing is done is told of if something was planned for it. -/
theorem of_made_eq_nil (none : madeEdits disk root audit violations file = [])
    (wet : after.repair.dryRun = false) (sameDisk : after.disk = before.disk)
    (sameEdits : after.repair.edits = before.repair.edits)
    (sameFiles : after.repair.files = before.repair.files)
    (told : ∀ notice ∈ before.notices, notice ∈ after.notices)
    (failed : plannedEdits audit violations file ≠ [] →
      .repairFailed file .readOnly ∈ after.notices) :
    Repairs disk root audit violations [file] before after where
  wet := wet
  written := by
    rw [sameDisk, List.filterMap_cons, write?, if_pos none]
    rfl
  edits := by rw [sameEdits, List.flatMap_cons, none, List.flatMap_nil, List.append_nil,
    List.append_nil]
  made := by rw [sameFiles, List.filter_cons_of_neg (by simp [none]), List.filter_nil,
    List.append_nil]
  told := told
  failed other member filled _ := by
    cases List.mem_singleton.mp member
    exact failed filled

/-- A file that is edited is written with its new text. -/
theorem of_made {place : List String} {text : List Char}
    (here : (placeOf disk root file).names = place)
    (filled : plannedEdits audit violations file ≠ []) (allowed : place ∉ disk.unwritable)
    (bytes : repairedBytes audit violations file = Text.encode text)
    (wet : after.repair.dryRun = false)
    (written : after.disk = { before.disk with
      tree := Tree.set (.file (Text.encode text)) place before.disk.tree })
    (edits : after.repair.edits = before.repair.edits ++ plannedEdits audit violations file)
    (files : after.repair.files = before.repair.files ++ [file])
    (told : ∀ notice ∈ before.notices, notice ∈ after.notices) :
    Repairs disk root audit violations [file] before after := by
  subst here
  have made : madeEdits disk root audit violations file =
      plannedEdits audit violations file := if_neg allowed
  refine ⟨wet, ?_, ?_, ?_, told, fun other member _ forbidden => ?_⟩
  · rw [written, List.filterMap_cons, write?, made, if_neg filled, bytes]
    rfl
  · rw [edits, List.flatMap_cons, made, List.flatMap_nil, List.append_nil]
  · rw [files, List.filter_cons_of_pos (by simpa [made] using filled), List.filter_nil]
  · cases List.mem_singleton.mp member
    exact absurd forbidden allowed

theorem resembles (done : Repairs disk root audit violations files before after)
    (stand : AllStand disk root files) (resembles : Resembles disk before.disk) :
    Resembles disk after.disk := by
  rw [done.written]
  refine ⟨resembles.workingDirectory, resembles.unreadable, resembles.unwritable,
    (Tree.sameShape_setAll fun write member => ?_).trans resembles.shape⟩
  obtain ⟨old, stands⟩ := stand.of_mem_writes write member
  exact resembles.shape.exists_file stands

end Repairs

/-- The repair of one file that stands. -/
theorem repairs_repairFile {disk : Disk} {file : String} {source : Source} {run : RepairRun}
    (plain : root.IsPlain) (stand : AllStand disk root [file])
    (kept : Analysis.sourceOf? audit.sources file = some source)
    (wet : run.repair.dryRun = false) (resembles : Resembles disk run.disk) :
    Repairs disk root audit violations [file] run
      (repairFile (placeOf run.disk root file) source (violations.filter (·.file == file))
        run) := by
  obtain ⟨plainPlace, old, stands⟩ := stand file List.mem_cons_self
  obtain ⟨current, standsNow⟩ := resembles.shape.exists_file stands
  have path := (Analysis.sourceOf?_eq_some kept).2
  have planned : plannedEdits audit violations file =
      (Fix.planFile source (violations.filter (·.file == file))).edits := by
    rw [plannedEdits, kept]
  have bytes : repairedBytes audit violations file =
      Text.encode (repairedText source (plannedEdits audit violations file)) := by
    rw [repairedBytes, kept]
  rw [resembles.placeOf plain, repairFile, ← planned]
  generalize started : (run.recordSkipped
    (Fix.planFile source (violations.filter (·.file == file))).skipped).tell
      ((plannedEdits audit violations file).map fun edit =>
        .planned edit.file edit.line edit.description) = start
  obtain ⟨sameDisk, sameDry, sameEdits, sameFiles, toldFirst⟩ :
      start.disk = run.disk ∧ start.repair.dryRun = run.repair.dryRun ∧
        start.repair.edits = run.repair.edits ∧ start.repair.files = run.repair.files ∧
        ∀ notice ∈ run.notices, notice ∈ start.notices := by
    rw [← started]
    exact ⟨rfl, rfl, rfl, rfl, fun _ member => List.mem_append_left _ member⟩
  obtain ⟨stays, toldHere, cases⟩ := writeEdits_cases source
    (plannedEdits audit violations file) plainPlace (sameDisk ▸ standsNow) (sameDry.trans wet)
  rw [sameDisk, sameEdits, sameFiles, path] at cases
  have told := fun notice member => toldHere notice (toldFirst notice member)
  rcases cases with ⟨none, sameDisk, sameEdits, sameFiles⟩ |
    ⟨_, forbidden, sameDisk, sameEdits, sameFiles, failed⟩ |
    ⟨filled, allowed, written, edits, files⟩
  · refine .of_made_eq_nil ?_ stays sameDisk sameEdits sameFiles told
      fun filled => absurd none filled
    rw [madeEdits, none, ite_self]
  · rw [resembles.unwritable] at forbidden
    exact .of_made_eq_nil (if_pos forbidden) stays sameDisk sameEdits sameFiles told
      fun _ => failed
  · rw [resembles.unwritable] at allowed
    exact .of_made rfl filled allowed bytes stays written edits files told

/-- A run that writes repairs one file after another. -/
theorem repairs_repairFiles (audit : Audit) (violations : List Violation) {disk : Disk}
    {files : List String} (plain : root.IsPlain) (stand : AllStand disk root files)
    {run : RepairRun} (wet : run.repair.dryRun = false)
    (resembles : Resembles disk run.disk) :
    Repairs disk root audit violations files run
      (repairFiles root audit violations files run) := by
  induction files generalizing run with
  | nil => exact .nil wet
  | cons file rest inductionHypothesis =>
    have standHere : AllStand disk root [file] := stand.of_subset (by simp)
    have standRest : AllStand disk root rest := stand.of_subset (List.subset_cons_self file rest)
    rw [repairFiles]
    cases kept : Analysis.sourceOf? audit.sources file with
    | none =>
      have nothing : plannedEdits audit violations file = [] := by rw [plannedEdits, kept]
      have none : madeEdits disk root audit violations file = [] := by
        rw [madeEdits, nothing, ite_self]
      exact .cons (.of_made_eq_nil none wet rfl rfl rfl (fun _ member => member)
        fun filled => absurd nothing filled) (inductionHypothesis standRest wet resembles)
    | some source =>
      have first : Repairs disk root audit violations [file] run _ :=
        repairs_repairFile plain standHere kept wet resembles
      exact first.cons
        (inductionHypothesis standRest first.wet (first.resembles standHere resembles))

/-! ### Whole repairs -/

/-- The violations of an audit that are to be fixed. -/
def chosenViolations (settings : Settings) (disk : Disk) (target : String)
    (options : RepairOptions) : List Violation :=
  (Project.audit settings disk target).2.violations.filter fun violation =>
    options.kinds.contains violation.kind

/-- The run with which a repair starts. -/
def startOf (settings : Settings) (disk : Disk) (target : String) (options : RepairOptions) :
    RepairRun :=
  ⟨⟨[], [], [], options.dryRun⟩,
    options.unfixable.map .noAutomaticFix ++ [.fixing target] ++
      (Project.audit settings disk target).1, disk⟩

theorem mem_chosenViolations {settings : Settings} {disk : Disk} {target : String}
    {options : RepairOptions} {violation : Violation} :
    violation ∈ chosenViolations settings disk target options ↔
      violation ∈ (Project.audit settings disk target).2.violations ∧
        violation.kind ∈ options.kinds := by
  rw [chosenViolations, List.mem_filter, List.contains_iff_mem]

theorem mem_filesToRepair {violations : List Violation} {file : String} :
    file ∈ filesToRepair violations ↔ ∃ violation ∈ violations, violation.file = file := by
  rw [filesToRepair, List.mem_mergeSort, Summary.mem_filesOf]

/-- What a file is planned names the file. -/
theorem file_of_mem_plannedEdits {file : String} {edit : Fix.Edit}
    (member : edit ∈ plannedEdits audit violations file) : edit.file = file := by
  rw [plannedEdits] at member
  split at member
  · cases member
  · rename_i source kept
    obtain ⟨_, _, _, path, _⟩ := Fix.exists_violation_of_mem_edits member
    exact path.trans (Analysis.sourceOf?_eq_some kept).2

/-- A run reports what is planned to be left alone in each file. -/
theorem skipped_repair (settings : Settings) (disk : Disk) (target : String)
    (options : RepairOptions) :
    (repair settings disk target options).repair.skipped =
      (filesToRepair (chosenViolations settings disk target options)).flatMap
        (plannedSkips (Project.audit settings disk target).2
          (chosenViolations settings disk target options)) :=
  skipped_repairFiles

/-- A dry run reports the edits planned for each file and the files with some, and the disk stays
as it is. -/
theorem repair_of_dryRun (settings : Settings) (disk : Disk) (target : String)
    {options : RepairOptions} (dry : options.dryRun = true) :
    let run := repair settings disk target options
    let planned := plannedEdits (Project.audit settings disk target).2
      (chosenViolations settings disk target options)
    let files := filesToRepair (chosenViolations settings disk target options)
    run.disk = disk ∧ run.repair.edits = files.flatMap planned ∧
      run.repair.files = files.filter fun file => planned file ≠ [] := by
  intro run planned files
  have startsDry : (startOf settings disk target options).repair.dryRun = true := dry
  exact repairFiles_of_dryRun startsDry

/-- The edits that a dry run reports. -/
theorem edits_repair_of_dryRun (settings : Settings) (disk : Disk) (target : String)
    {options : RepairOptions} (dry : options.dryRun = true) :
    (repair settings disk target options).repair.edits =
      (filesToRepair (chosenViolations settings disk target options)).flatMap
        (plannedEdits (Project.audit settings disk target).2
          (chosenViolations settings disk target options)) :=
  (repair_of_dryRun settings disk target dry).2.1

end Project

end CrateAudit

/-
This file says where the files of an audit lie. Each was found below the root or is the
root itself, was read from where it stands, and its name leads back there. A repair
reads and writes no other places, and no two files share one.
-/

import CrateAudit.Proofs.Repairing
import CrateAudit.Proofs.ShownPaths

namespace CrateAudit

namespace Project

/-! ### Places below a root -/

/-- How the file at a place is named below a root. -/
def shownName (root : Path) (place : List String) : String :=
  (Path.mk root.start place).shownBelow root

/-- A place that an audit can look at: the root if it is a file, or one below it. -/
def IsBelow (disk : Disk) (root : Path) (place : List String) : Prop :=
  (place = root.names ∧ ∃ bytes, disk.tree.view root.names = some (some bytes)) ∨
    (disk.tree.view root.names = some none ∧ ∃ names, names ≠ [] ∧ place = root.names ++ names)

theorem shownName_root (root : Path) : shownName root root.names = root.name := by
  rw [shownName, Path.shownBelow, if_pos rfl]

theorem shownName_append (root : Path) {names : List String} (nonempty : names ≠ []) :
    shownName root (root.names ++ names) = Path.text ⟨.relative, names⟩ := by
  have apart : Path.mk root.start (root.names ++ names) ≠ root := by
    intro same
    have names' := congrArg Path.names same
    simp only at names'
    exact nonempty (by simpa using names')
  have found := Path.below?_append root ⟨.relative, names⟩ rfl
  rw [shownName, Path.shownBelow, if_neg apart]
  simp only [Path.append] at found
  rw [found, Option.getD_some]

/-- Whatever lies elsewhere is shown by its whole path. -/
theorem shownName_of_elsewhere {root : Path} {place : List String}
    (elsewhere : ∀ names, place ≠ root.names ++ names) :
    shownName root place = (Path.mk root.start place).text := by
  have apart : Path.mk root.start place ≠ root := by
    intro same
    exact elsewhere [] (by rw [List.append_nil, ← same])
  have missing : (Path.mk root.start place).below? root = none := by
    rw [Path.below?, if_neg]
    rintro ⟨_, inside⟩
    obtain ⟨names, whole⟩ := List.isPrefixOf_iff_prefix.mp inside
    exact elsewhere names whole.symm
  rw [shownName, Path.shownBelow, if_neg apart, missing, Option.getD_none]

variable {disk : Disk} {root : Path} {place place' : List String}

/-- What stands below a place has names on the way that a path can hold. -/
theorem held_of_view (sound : disk.isSound = true) {names : List String} {what : Option Bytes}
    (stands : disk.tree.view (root.names ++ names) = some what) :
    ∀ name ∈ names, Path.isPathName name = true := by
  rw [Disk.isSound, Bool.and_eq_true] at sound
  rw [Tree.view, Option.map_eq_some_iff] at stands
  obtain ⟨found, stands, _⟩ := stands
  exact fun name member => Path.isPathName_of_isProperName
    ((Tree.proper_of_get? sound.1 stands).1 name (List.mem_append_right _ member))

/-- The name of a file leads to it. -/
theorem placeOf_shownName (sound : disk.isSound = true) (plain : root.IsPlain)
    (below : IsBelow disk root place) {bytes : Bytes}
    (stands : disk.tree.view place = some (some bytes)) :
    placeOf disk root (shownName root place) = ⟨root.start, place⟩ := by
  rcases below with ⟨rfl, _, isFile⟩ | ⟨isDirectory, names, nonempty, rfl⟩
  · have notDirectory : ¬ disk.holdsDirectory root = true := by
      rw [Disk.holdsDirectory_of_isPlain plain, isFile]
      simp
    rw [placeOf, if_neg notDirectory]
  · have holds : disk.holdsDirectory root = true :=
      (Disk.holdsDirectory_of_isPlain plain).mpr isDirectory
    rw [placeOf, if_pos holds, shownName_append root nonempty,
      Path.ofText_text (held_of_view sound stands)]
    rfl

/-- No two files are shown under one name. -/
theorem shownName_injective (sound : disk.isSound = true) (plain : root.IsPlain)
    {bytes bytes' : Bytes} (stands : disk.tree.view place = some (some bytes))
    (stands' : disk.tree.view place' = some (some bytes')) (below : IsBelow disk root place')
    (same : shownName root place = shownName root place') : place = place' := by
  by_cases inside : ∃ names, place = root.names ++ names
  · obtain ⟨names, rfl⟩ := inside
    rcases below with ⟨rfl, own, isFile⟩ | ⟨isDirectory, names', nonempty, rfl⟩
    · cases names with
      | nil => rw [List.append_nil]
      | cons name rest =>
        rw [Tree.view_eq_file] at isFile
        rw [Tree.view, Tree.get?_append, isFile] at stands
        cases stands
    · have nonempty' : names ≠ [] := by
        rintro rfl
        rw [List.append_nil, isDirectory] at stands
        cases stands
      rw [shownName_append root nonempty, shownName_append root nonempty'] at same
      have read := Path.eq_of_text same (held_of_view sound stands) (held_of_view sound stands')
      rw [(Path.mk.inj read).2]
  · rw [shownName_of_elsewhere fun names whole => inside ⟨names, whole⟩] at same
    have absolute : (Path.mk root.start place).start ≠ .relative := plain.start_ne
    rcases below with ⟨rfl, _, isFile⟩ | ⟨isDirectory, names, nonempty, rfl⟩
    · obtain ⟨rest, shape⟩ := Path.exists_slash_text absolute
      have held : ∀ name ∈ root.names, Path.isPathName name = true := by
        rw [Disk.isSound, Bool.and_eq_true] at sound
        exact fun name member => Path.isPathName_of_isProperName
          ((Tree.proper_of_get? sound.1 (Tree.view_eq_file.mp isFile)).1 name member)
      rw [same, shownName_root] at shape
      exact absurd (by rw [shape]; exact List.mem_cons_self) (Path.slash_not_mem_name held)
    · rw [shownName_append root nonempty] at same
      exact absurd same (Path.text_ne_of_absolute absolute nonempty
        (held_of_view sound stands'))

/-! ### The files that are found and read -/

theorem mem_sortPaths {paths : List Path} {path : Path} :
    path ∈ sortPaths paths ↔ path ∈ paths := by
  rw [sortPaths, List.mem_mergeSort]

mutual

/-- The places of sources in a tree have its name in front. -/
theorem ne_nil_of_mem_sourcesIn {excluded : List String} {name : String} {tree : Tree}
    {names : List String} (member : names ∈ sourcesIn excluded name tree) : names ≠ [] := by
  cases tree with
  | file bytes =>
    rw [sourcesIn] at member
    split at member
    · rw [List.mem_singleton.mp member]
      exact List.cons_ne_nil _ _
    · cases member
  | directory entries =>
    rw [sourcesIn] at member
    split at member
    · cases member
    · obtain ⟨_, _, rfl⟩ := List.mem_map.mp member
      exact List.cons_ne_nil _ _

theorem ne_nil_of_mem_sourcesBelow {excluded : List String} {entries : List (String × Tree)}
    {names : List String} (member : names ∈ sourcesBelow excluded entries) : names ≠ [] := by
  cases entries with
  | nil => cases member
  | cons entry rest =>
    rw [sourcesBelow] at member
    rcases List.mem_append.mp member with here | later
    · exact ne_nil_of_mem_sourcesIn here
    · exact ne_nil_of_mem_sourcesBelow later

end

mutual

/-- The places of sources in a tree of proper names are proper. -/
theorem proper_of_mem_sourcesIn {excluded : List String} {name : String} {tree : Tree}
    {names : List String} (own : isProperName name = true)
    (proper : tree.hasProperNames = true) (member : names ∈ sourcesIn excluded name tree) :
    ∀ part ∈ names, isProperName part = true := by
  cases tree with
  | file bytes =>
    rw [sourcesIn] at member
    split at member
    · rw [List.mem_singleton.mp member]
      exact fun part inside => List.mem_singleton.mp inside ▸ own
    · cases member
  | directory entries =>
    rw [sourcesIn] at member
    split at member
    · cases member
    · obtain ⟨rest, later, rfl⟩ := List.mem_map.mp member
      rw [Tree.hasProperNames] at proper
      intro part inside
      rcases List.mem_cons.mp inside with rfl | inside
      · exact own
      · exact proper_of_mem_sourcesBelow proper later part inside

theorem proper_of_mem_sourcesBelow {excluded : List String} {entries : List (String × Tree)}
    {names : List String} (proper : Tree.haveProperNames entries = true)
    (member : names ∈ sourcesBelow excluded entries) :
    ∀ part ∈ names, isProperName part = true := by
  cases entries with
  | nil => cases member
  | cons entry rest =>
    obtain ⟨name, tree⟩ := entry
    rw [Tree.haveProperNames, Bool.and_eq_true, Bool.and_eq_true] at proper
    rw [sourcesBelow] at member
    rcases List.mem_append.mp member with here | later
    · exact proper_of_mem_sourcesIn proper.1.1 proper.1.2 here
    · exact proper_of_mem_sourcesBelow proper.2 later

end

/-- The files to look at below a path or at it, by what stands there. -/
theorem discover_eq (plain : root.IsPlain)
    (excluded : List String) :
    discover disk root excluded =
      match disk.tree.get? root.names with
      | some (.directory entries) =>
        sortPaths <| (sourcesBelow excluded entries).map fun names =>
          ⟨root.start, root.names ++ names⟩
      | some (.file _) => if isSourceFile root.name then [root] else []
      | none => [] := by
  rw [discover, Disk.resolve_of_isPlain plain]
  cases stands : disk.tree.get? root.names with
  | none =>
    cases found : disk.lookup root with
    | error fault => rfl
    | ok tree =>
      rw [Disk.lookup_eq_ok plain, stands] at found
      cases found
  | some tree =>
    rw [(Disk.lookup_eq_ok plain).mpr stands]
    cases tree <;> rfl

/-- What is found lies below the root, and leads to its own place. -/
theorem isBelow_of_mem_discover {excluded : List String} {path : Path}
    (sound : disk.isSound = true) (plain : root.IsPlain)
    (found : path ∈ discover disk root excluded) :
    path.start = root.start ∧ path.IsPlain ∧ IsBelow disk root path.names := by
  rw [discover_eq plain] at found
  split at found
  · rename_i entries standing
    rw [mem_sortPaths] at found
    obtain ⟨names, member, rfl⟩ := List.mem_map.mp found
    rw [Disk.isSound, Bool.and_eq_true] at sound
    have proper := (Tree.proper_of_get? sound.1 standing).2
    rw [Tree.hasProperNames] at proper
    refine ⟨rfl, ⟨plain.start, fun name inside => ?_⟩,
      Or.inr ⟨Tree.view_eq_directory.mpr ⟨entries, standing⟩, names,
        ne_nil_of_mem_sourcesBelow member, rfl⟩⟩
    rcases List.mem_append.mp inside with above | below
    · exact plain.names name above
    · exact ne_parent_of_isProperName (proper_of_mem_sourcesBelow proper member name below)
  · rename_i bytes standing
    split at found
    · rw [List.mem_singleton.mp found]
      exact ⟨rfl, plain, Or.inl ⟨rfl, bytes, Tree.view_eq_file.mpr standing⟩⟩
    · cases found
  · cases found

/-- A file that was read from a place, and the source that it was read as. -/
structure IsAudited (disk : Disk) (root : Path) (place : List String) (bytes : Bytes)
    (source : Source) : Prop where
  plain : (Path.mk root.start place).IsPlain
  below : IsBelow disk root place
  stands : disk.tree.view place = some (some bytes)
  readable : place ∉ disk.unreadable
  source : source = .ofText (shownName root place) (Text.unifyLineFeeds (Text.decode bytes))

theorem IsAudited.path {bytes : Bytes} {source : Source}
    (audited : IsAudited disk root place bytes source) : source.path = shownName root place := by
  rw [audited.source]
  rfl

theorem IsAudited.placeOf {bytes : Bytes} {source : Source} (sound : disk.isSound = true)
    (plain : root.IsPlain) (audited : IsAudited disk root place bytes source) :
    Project.placeOf disk root source.path = ⟨root.start, place⟩ := by
  rw [audited.path]
  exact placeOf_shownName sound plain audited.below audited.stands

variable {settings : Settings} {target : String}

/-- The scans of an audit are those of the files that were read from the places found. -/
theorem mem_scansAt_iff (sound : disk.isSound = true) {scan : FileScan} :
    let root := disk.resolve (.ofText target)
    scan ∈ scansAt settings disk target ↔
      ∃ place bytes, IsAudited disk root place bytes scan.source ∧
        (Path.mk root.start place) ∈ discover disk root settings.excludedDirectories ∧
        scan.violations = scanSource settings scan.source
          (testPathOf root ⟨root.start, place⟩) := by
  intro root
  have plain : root.IsPlain := Disk.isPlain_resolve sound _
  refine mem_scansOf.trans ⟨?_, ?_⟩
  · rintro ⟨path, found, read⟩
    obtain ⟨content, read, shape⟩ := scanFile_eq_ok.mp read
    obtain ⟨start, plainPath, below⟩ := isBelow_of_mem_discover sound plain found
    obtain ⟨readable, bytes, stands, text⟩ := (Disk.readText_eq_ok plainPath).mp read
    obtain ⟨start', names⟩ := path
    simp only at start
    subst start
    refine ⟨names, bytes, ⟨plainPath, below, stands, readable, ?_⟩, found, ?_⟩
    · rw [shape, text]
      rfl
    · rw [shape]
  · rintro ⟨place, bytes, audited, found, violations⟩
    refine ⟨_, found, scanFile_eq_ok.mpr ⟨_, (Disk.readText_eq_ok audited.plain).mpr
      ⟨audited.readable, bytes, audited.stands, rfl⟩, ?_⟩⟩
    obtain ⟨source, found⟩ := scan
    have read : source = _ := audited.source
    simp only at violations
    rw [violations, read]
    rfl

/-- A file is read from a place as one source. -/
theorem IsAudited.unique {bytes bytes' : Bytes} {source source' : Source}
    (audited : IsAudited disk root place bytes source)
    (audited' : IsAudited disk root place bytes' source') : bytes = bytes' ∧ source = source' := by
  have same : bytes = bytes' :=
    Option.some.inj (Option.some.inj (audited.stands.symm.trans audited'.stands))
  exact ⟨same, by rw [audited.source, audited'.source, same]⟩

/-- No two scans of an audit are of files of one name. -/
theorem scan_eq_of_path (sound : disk.isSound = true) {first second : FileScan}
    (member : first ∈ scansAt settings disk target)
    (member' : second ∈ scansAt settings disk target)
    (same : first.source.path = second.source.path) : first = second := by
  have plain := Disk.isPlain_resolve sound (.ofText target)
  obtain ⟨place, bytes, audited, _, violations⟩ := (mem_scansAt_iff sound).mp member
  obtain ⟨place', bytes', audited', _, violations'⟩ := (mem_scansAt_iff sound).mp member'
  have samePlace : place = place' := shownName_injective sound plain audited.stands
    audited'.stands audited'.below (by rw [← audited.path, ← audited'.path, same])
  subst samePlace
  have sources := (audited.unique audited').2
  obtain ⟨source, found⟩ := first
  obtain ⟨source', found'⟩ := second
  simp only at violations violations' sources
  rw [violations, violations', sources]

/-- The source that is kept for a file with violations was read from its place. -/
theorem exists_isAudited_of_mem_filesToRepair (sound : disk.isSound = true)
    {options : RepairOptions} {file : String}
    (member : file ∈ filesToRepair (chosenViolations settings disk target options)) :
    ∃ source place bytes,
      Analysis.sourceOf? (Project.audit settings disk target).2.sources file = some source ∧
        source.path = file ∧
        IsAudited disk (disk.resolve (.ofText target)) place bytes source := by
  obtain ⟨violation, chosen, rfl⟩ := mem_filesToRepair.mp member
  obtain ⟨source, kept⟩ :=
    exists_source_of_mem_violations (mem_chosenViolations.mp chosen).1
  obtain ⟨inside, path⟩ := Analysis.sourceOf?_eq_some kept
  rw [audit_eq, Audit.mem_sources_ofScans] at inside
  obtain ⟨scan, scanned, _, rfl⟩ := inside
  obtain ⟨place, bytes, audited, _⟩ := (mem_scansAt_iff sound).mp scanned
  exact ⟨scan.source, place, bytes, kept, path, audited⟩

theorem allStand_filesToRepair (sound : disk.isSound = true) (options : RepairOptions) :
    AllStand disk (disk.resolve (.ofText target))
      (filesToRepair (chosenViolations settings disk target options)) := by
  intro file member
  obtain ⟨source, place, bytes, _, rfl, audited⟩ :=
    exists_isAudited_of_mem_filesToRepair sound member
  rw [audited.placeOf sound (Disk.isPlain_resolve sound _)]
  exact ⟨audited.plain, bytes, audited.stands⟩

/-! ### Every file once -/

theorem nodup_filesToRepair (violations : List Violation) :
    (filesToRepair violations).Nodup :=
  (List.mergeSort_perm _ _).nodup_iff.mpr (Summary.nodup_filesOf violations)

/-- No two writes of a repair go to one place. -/
theorem nodup_writes (sound : disk.isSound = true) (options : RepairOptions) :
    let root := disk.resolve (.ofText target)
    let chosen := chosenViolations settings disk target options
    (((filesToRepair chosen).filterMap
      (write? disk root (Project.audit settings disk target).2 chosen)).map (·.1)).Nodup := by
  intro root chosen
  have plain : root.IsPlain := Disk.isPlain_resolve sound _
  rw [List.Nodup, List.pairwise_map, List.pairwise_filterMap]
  refine (nodup_filesToRepair chosen).imp_of_mem ?_
  intro file file' member member' apart write written write' written' same
  have placed {name : String} {entry : List String × Bytes}
      (written : write? disk root (Project.audit settings disk target).2 chosen name =
        some entry) : entry.1 = (placeOf disk root name).names := by
    rw [write?] at written
    split at written
    · cases written
    · cases written
      rfl
  rw [placed written, placed written'] at same
  obtain ⟨source, place, bytes, _, rfl, audited⟩ :=
    exists_isAudited_of_mem_filesToRepair sound member
  obtain ⟨source', place', bytes', _, rfl, audited'⟩ :=
    exists_isAudited_of_mem_filesToRepair sound member'
  rw [audited.placeOf sound plain, audited'.placeOf sound plain] at same
  simp only at same
  exact apart (by rw [audited.path, audited'.path, same])

end Project

end CrateAudit

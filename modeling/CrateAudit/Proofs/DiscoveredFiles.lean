/-
This file says which files an audit finds below a directory: those with the name of a
source or a manifest that lie in no directory that is excluded or has a dot in front of
its name. They come once each, in the order of their paths as texts, and visiting one
directory after another finds the same ones.
-/

import CrateAudit.Project.Visits
import CrateAudit.Proofs.Deletion

namespace CrateAudit.Project

/-- A file below a directory that is looked at: it has the name of a source or a manifest, and none
of the directories that lead to it is excluded or has a dot in front of its name. -/
structure IsOpenSource (entries : List (String × Tree)) (excluded directories : List String)
    (name : String) : Prop where
  stands : ∃ bytes, (Tree.directory entries).get? (directories ++ [name]) = some (.file bytes)
  named : ".rs".toList <:+ name.toList ∨ name = "Cargo.toml"
  passable : ∀ directory ∈ directories,
    directory ∉ excluded ∧ ¬ ".".toList <+: directory.toList

variable {excluded directories names : List String} {name : String}
  {entries : List (String × Tree)}

/-! ### Names -/

theorem isSourceName_iff :
    isSourceName name = true ↔ ".rs".toList <:+ name.toList ∨ name = "Cargo.toml" := by
  rw [isSourceName, Bool.or_eq_true, List.isSuffixOf_iff_suffix, beq_iff_eq, Source.manifestName]

theorem isPruned_eq_false_iff :
    isPruned excluded name = false ↔ name ∉ excluded ∧ ¬ ".".toList <+: name.toList := by
  rw [isPruned, Bool.or_eq_false_iff, ← Bool.not_eq_true, ← Bool.not_eq_true,
    List.contains_iff_mem, List.isPrefixOf_iff_prefix]

/-! ### Places below a directory -/

theorem cons_mem_sourcesIn_file {bytes : Bytes} :
    name :: names ∈ sourcesIn excluded name (.file bytes) ↔
      names = [] ∧ isSourceName name = true := by
  rw [sourcesIn]
  split <;> rename_i counts <;> simp [counts]

theorem cons_mem_sourcesIn_directory :
    name :: names ∈ sourcesIn excluded name (.directory entries) ↔
      isPruned excluded name = false ∧ names ∈ sourcesBelow excluded entries := by
  rw [sourcesIn]
  split <;> rename_i pruned <;> simp [pruned]

/-- A file below a directory lies in the entry with its first name. -/
theorem cons_mem_sourcesBelow_iff (distinct : Tree.haveDistinctNames entries = true) :
    name :: names ∈ sourcesBelow excluded entries ↔
      ∃ tree, entries.lookup name = some tree ∧ name :: names ∈ sourcesIn excluded name tree := by
  induction entries with
  | nil => simp [sourcesBelow]
  | cons entry rest inductionHypothesis =>
    obtain ⟨own, sub⟩ := entry
    obtain ⟨apart, -, later⟩ := Tree.haveDistinctNames_cons.mp distinct
    rw [sourcesBelow, List.mem_append, Tree.lookup_cons_eq]
    by_cases here : name = own
    · subst here
      have elsewhere : name :: names ∉ sourcesBelow excluded rest := fun member => by
        obtain ⟨other, inside, head⟩ := head?_of_mem_sourcesBelow member
        exact apart other inside (Option.some.inj head).symm
      simp [elsewhere]
    · have elsewhere : name :: names ∉ sourcesIn excluded own sub := fun member =>
        here (Option.some.inj (head?_of_mem_sourcesIn member))
      rw [if_neg here, ← inductionHypothesis later, or_iff_right elsewhere]

/-- A file of the directory itself is found by its name. -/
theorem singleton_mem_sourcesBelow_iff (distinct : Tree.haveDistinctNames entries = true) :
    [name] ∈ sourcesBelow excluded entries ↔
      isSourceName name = true ∧ ∃ bytes, entries.lookup name = some (.file bytes) := by
  rw [cons_mem_sourcesBelow_iff distinct]
  constructor
  · rintro ⟨tree, found, member⟩
    cases tree with
    | file bytes => exact ⟨(cons_mem_sourcesIn_file.mp member).2, bytes, found⟩
    | directory below =>
      exact absurd rfl (ne_nil_of_mem_sourcesBelow (cons_mem_sourcesIn_directory.mp member).2)
  · rintro ⟨counts, bytes, found⟩
    exact ⟨_, found, cons_mem_sourcesIn_file.mpr ⟨rfl, counts⟩⟩

/-- Every other file is found in the directory that leads to it, unless that is passed over. -/
theorem directory_mem_sourcesBelow_iff (distinct : Tree.haveDistinctNames entries = true)
    (filled : names ≠ []) :
    name :: names ∈ sourcesBelow excluded entries ↔ isPruned excluded name = false ∧
      ∃ below, entries.lookup name = some (.directory below) ∧
        names ∈ sourcesBelow excluded below := by
  rw [cons_mem_sourcesBelow_iff distinct]
  constructor
  · rintro ⟨tree, found, member⟩
    cases tree with
    | file bytes => exact absurd (cons_mem_sourcesIn_file.mp member).1 filled
    | directory below =>
      obtain ⟨passed, later⟩ := cons_mem_sourcesIn_directory.mp member
      exact ⟨passed, below, found, later⟩
  · rintro ⟨passed, below, found, later⟩
    exact ⟨_, found, cons_mem_sourcesIn_directory.mpr ⟨passed, later⟩⟩

theorem get?_cons_directory (entries : List (String × Tree)) (name : String)
    (rest : List String) :
    (Tree.directory entries).get? (name :: rest) = (entries.lookup name).bind (·.get? rest) := by
  rw [Tree.get?]
  cases entries.lookup name <;> rfl

theorem isOpenSource_nil_iff :
    IsOpenSource entries excluded [] name ↔
      isSourceName name = true ∧ ∃ bytes, entries.lookup name = some (.file bytes) := by
  have own (bytes : Bytes) : (Tree.directory entries).get? [name] = some (.file bytes) ↔
      entries.lookup name = some (.file bytes) := by
    rw [get?_cons_directory]
    cases entries.lookup name <;> rfl
  constructor
  · rintro ⟨⟨bytes, stands⟩, named, -⟩
    exact ⟨isSourceName_iff.mpr named, bytes, (own bytes).mp stands⟩
  · rintro ⟨counts, bytes, found⟩
    exact ⟨⟨bytes, (own bytes).mpr found⟩, isSourceName_iff.mp counts,
      fun _ member => absurd member List.not_mem_nil⟩

theorem isOpenSource_cons_iff {directory : String} :
    IsOpenSource entries excluded (directory :: directories) name ↔
      isPruned excluded directory = false ∧
        ∃ below, entries.lookup directory = some (.directory below) ∧
          IsOpenSource below excluded directories name := by
  constructor
  · rintro ⟨⟨bytes, stands⟩, named, passable⟩
    rw [List.forall_mem_cons] at passable
    rw [List.cons_append, get?_cons_directory, Option.bind_eq_some_iff] at stands
    obtain ⟨tree, found, stands⟩ := stands
    cases tree with
    | file other => cases directories <;> cases stands
    | directory below =>
      exact ⟨isPruned_eq_false_iff.mpr passable.1, below, found, ⟨bytes, stands⟩, named,
        passable.2⟩
  · rintro ⟨passed, below, found, ⟨bytes, stands⟩, named, passable⟩
    refine ⟨⟨bytes, ?_⟩, named,
      List.forall_mem_cons.mpr ⟨isPruned_eq_false_iff.mp passed, passable⟩⟩
    rw [List.cons_append, get?_cons_directory, found]
    exact stands

/-- What is found below a directory is what is looked at below it. -/
theorem append_mem_sourcesBelow_iff (distinct : Tree.haveDistinctNames entries = true) :
    directories ++ [name] ∈ sourcesBelow excluded entries ↔
      IsOpenSource entries excluded directories name := by
  induction directories generalizing entries with
  | nil => rw [List.nil_append, singleton_mem_sourcesBelow_iff distinct, isOpenSource_nil_iff]
  | cons directory rest inductionHypothesis =>
    have filled : rest ++ [name] ≠ [] := List.append_ne_nil_of_right_ne_nil _ (List.cons_ne_nil _ _)
    rw [List.cons_append, directory_mem_sourcesBelow_iff distinct filled, isOpenSource_cons_iff]
    refine and_congr_right' (exists_congr fun below => and_congr_right fun found => ?_)
    have distinctBelow := Tree.distinct_of_lookup distinct found
    rw [Tree.hasDistinctNames] at distinctBelow
    exact inductionHypothesis distinctBelow

theorem mem_sourcesBelow_iff (distinct : Tree.haveDistinctNames entries = true) :
    names ∈ sourcesBelow excluded entries ↔
      ∃ directories name, IsOpenSource entries excluded directories name ∧
        names = directories ++ [name] := by
  constructor
  · intro member
    obtain ⟨directories, name, rfl⟩ :=
      (List.eq_nil_or_concat names).resolve_left (ne_nil_of_mem_sourcesBelow member)
    rw [List.concat_eq_append] at member ⊢
    exact ⟨directories, name, (append_mem_sourcesBelow_iff distinct).mp member, rfl⟩
  · rintro ⟨directories, name, isOpen, rfl⟩
    exact (append_mem_sourcesBelow_iff distinct).mpr isOpen

/-! ### Visits -/

namespace Directory

/-- The files to look at in a directory, however deep, as texts of their paths. -/
def allSources (excluded : List String) (directory : Directory) : List String :=
  (sourcesBelow excluded directory.entries).map fun names =>
    (Path.mk directory.path.start (directory.path.names ++ names)).text

theorem sources_file (path : Path) (name : String) (bytes : Bytes)
    (rest : List (String × Tree)) :
    sources ⟨path, (name, .file bytes) :: rest⟩ =
      (if isSourceName name then [(path.child name).text] else []) ++ sources ⟨path, rest⟩ := by
  by_cases counts : isSourceName name = true <;> simp [sources, counts]

theorem sources_directory (path : Path) (name : String) (below rest : List (String × Tree)) :
    sources ⟨path, (name, .directory below) :: rest⟩ = sources ⟨path, rest⟩ := rfl

theorem allSources_file (path : Path) (name : String) (bytes : Bytes)
    (rest : List (String × Tree)) :
    allSources excluded ⟨path, (name, .file bytes) :: rest⟩ =
      (if isSourceName name then [(path.child name).text] else []) ++
        allSources excluded ⟨path, rest⟩ := by
  by_cases counts : isSourceName name = true <;>
    simp [allSources, sourcesBelow, sourcesIn, Path.child, counts]

theorem allSources_directory (path : Path) (name : String) (below rest : List (String × Tree)) :
    allSources excluded ⟨path, (name, .directory below) :: rest⟩ =
      (if isPruned excluded name then [] else allSources excluded ⟨path.child name, below⟩) ++
        allSources excluded ⟨path, rest⟩ := by
  by_cases pruned : isPruned excluded name = true <;>
    simp [allSources, sourcesBelow, sourcesIn, Path.child, pruned]

/-- The files in a directory are its own ones and those in the directories that are visited after
it. -/
theorem allSources_perm (excluded : List String) (directory : Directory) :
    (directory.allSources excluded).Perm
      (directory.sources ++ (directory.subdirectories excluded).flatMap (allSources excluded)) := by
  obtain ⟨path, entries⟩ := directory
  have visited := (subdirectories_perm excluded ⟨path, entries⟩).flatMap_right
    (allSources excluded)
  -- Without their order the directories come as the entries do, and so by induction on these.
  refine .trans ?_ (.append_left _ visited.symm)
  clear visited
  induction entries with
  | nil => exact .refl _
  | cons entry rest inductionHypothesis =>
    obtain ⟨name, tree⟩ := entry
    cases tree with
    | file bytes =>
      rw [allSources_file, sources_file, directoriesOf_file, List.append_assoc]
      exact .append_left _ inductionHypothesis
    | directory below =>
      rw [allSources_directory, sources_directory, directoriesOf_directory, List.filter_cons]
      cases isPruned excluded name with
      | true => exact inductionHypothesis
      | false => exact (inductionHypothesis.append_left _).trans (List.perm_append_comm_assoc _ _ _)

end Directory

namespace Search

/-- What has been found, and what there is to find in the directories that wait. -/
def outcome (excluded : List String) (search : Search) : List String :=
  search.found ++ search.waiting.flatMap (Directory.allSources excluded)

/-- A visit loses no file and adds none. -/
theorem outcome_visit_perm (excluded : List String) (directory : Directory)
    (waiting : List Directory) (found : List String) :
    (outcome excluded
      ⟨directory.subdirectories excluded ++ waiting, found ++ directory.sources⟩).Perm
      (outcome excluded ⟨directory :: waiting, found⟩) := by
  rw [outcome, outcome, List.flatMap_append, List.flatMap_cons, List.append_assoc,
    ← List.append_assoc directory.sources]
  exact .append_left _ (.append_right _ (directory.allSources_perm excluded).symm)

/-- What a search finds in the end is what it had found and what there was to find. -/
theorem run_perm (excluded : List String) (search : Search) :
    (search.run excluded).Perm (search.outcome excluded) := by
  induction search using run.induct excluded with
  | case1 found =>
    rw [run, outcome, List.flatMap_nil, List.append_nil]
  | case2 directory waiting found inductionHypothesis =>
    rw [run]
    exact inductionHypothesis.trans (outcome_visit_perm excluded directory waiting found)

end Search

/-! ### Texts in order -/

/-- There is one order of texts. -/
theorem mergeSort_eq_of_perm {texts texts' : List String} (perm : texts.Perm texts') :
    (texts.mergeSort fun first second => first ≤ second) =
      texts'.mergeSort fun first second => first ≤ second := by
  have sorted (texts : List String) := pairwise_mergeSort_name (fun text => text) texts
  refine List.Perm.eq_of_pairwise (fun _ _ _ _ => le_antisymm) (sorted texts) (sorted texts') ?_
  exact (List.mergeSort_perm _ _).trans (perm.trans (List.mergeSort_perm _ _).symm)

theorem map_text_sortPaths (paths : List Path) :
    (sortPaths paths).map (·.text) =
      (paths.map (·.text)).mergeSort fun first second => first ≤ second :=
  List.map_mergeSort fun _ _ _ _ => rfl

/-! ### The files of a project -/

variable {disk : Disk} {path : Path}

theorem discover_eq_of_directory (plain : (disk.resolve path).IsPlain) (excluded : List String)
    (stands : disk.tree.get? (disk.resolve path).names = some (.directory entries)) :
    discover disk path excluded =
      sortPaths ((sourcesBelow excluded entries).map fun names =>
        ⟨(disk.resolve path).start, (disk.resolve path).names ++ names⟩) := by
  rw [discover, (Disk.lookup_eq_ok plain).mpr stands]

/-- Visiting one directory after another finds the files of an audit. -/
theorem map_text_discover (plain : (disk.resolve path).IsPlain) (excluded : List String)
    (stands : disk.tree.get? (disk.resolve path).names = some (.directory entries)) :
    (discover disk path excluded).map (·.text) =
      searchBelow excluded ⟨disk.resolve path, entries⟩ := by
  -- Both are sorted as texts: two paths might share one, and then sorting them would not do.
  have found := Search.run_perm excluded ⟨[⟨disk.resolve path, entries⟩], []⟩
  rw [Search.outcome, List.nil_append, List.flatMap_singleton, Directory.allSources] at found
  rw [discover_eq_of_directory plain excluded stands, map_text_sortPaths, List.map_map,
    searchBelow]
  exact mergeSort_eq_of_perm found.symm

/-- Whatever stands on a sound disk is told apart by its path as a text. -/
theorem path_eq_of_text {path' : Path} (sound : disk.isSound = true) {tree tree' : Tree}
    (stands : disk.tree.get? path.names = some tree)
    (stands' : disk.tree.get? path'.names = some tree') (same : path.text = path'.text) :
    path = path' := by
  rw [Disk.isSound, Bool.and_eq_true] at sound
  exact Path.eq_of_text same
    (fun _ member => Path.isPathName_of_isProperName
      ((Tree.proper_of_get? sound.1 stands).1 _ member))
    fun _ member => Path.isPathName_of_isProperName
      ((Tree.proper_of_get? sound.1 stands').1 _ member)

section

variable (sound : disk.isSound = true) (distinct : disk.tree.hasDistinctNames = true)
  (stands : disk.tree.get? (disk.resolve path).names = some (.directory entries))

include sound distinct stands

theorem mem_discover_iff {file : Path} :
    file ∈ discover disk path excluded ↔
      ∃ directories name, IsOpenSource entries excluded directories name ∧
        file = ⟨(disk.resolve path).start,
          (disk.resolve path).names ++ (directories ++ [name])⟩ := by
  have distinctBelow := Tree.distinct_of_get? distinct stands
  rw [Tree.hasDistinctNames] at distinctBelow
  rw [discover_eq_of_directory (Disk.isPlain_resolve sound path) excluded stands, mem_sortPaths,
    List.mem_map]
  constructor
  · rintro ⟨names, member, rfl⟩
    obtain ⟨directories, name, isOpen, rfl⟩ := (mem_sourcesBelow_iff distinctBelow).mp member
    exact ⟨directories, name, isOpen, rfl⟩
  · rintro ⟨directories, name, isOpen, rfl⟩
    exact ⟨_, (mem_sourcesBelow_iff distinctBelow).mpr ⟨directories, name, isOpen, rfl⟩, rfl⟩

/-- A file is found where it stands on the disk. -/
theorem get?_of_mem_discover {file : Path} (member : file ∈ discover disk path excluded) :
    ∃ bytes, disk.tree.get? file.names = some (.file bytes) := by
  obtain ⟨directories, name, isOpen, rfl⟩ := (mem_discover_iff sound distinct stands).mp member
  obtain ⟨bytes, below⟩ := isOpen.stands
  exact ⟨bytes, by rw [Tree.get?_append, stands, Option.bind_some, below]⟩

/-- The files come in ascending order of their paths as texts, so none of them twice. -/
theorem pairwise_discover : ((discover disk path excluded).map (·.text)).Pairwise (· < ·) := by
  have plain := Disk.isPlain_resolve sound path
  have resolved : discover disk path excluded = discover disk (disk.resolve path) excluded := by
    rw [discover, discover, Disk.resolve_of_isPlain plain]
  have nodup : (discover disk path excluded).Nodup :=
    resolved ▸ nodup_discover distinct plain excluded
  have apart : ((discover disk path excluded).map (·.text)).Nodup := by
    refine nodup.map_on fun file member file' member' same => ?_
    obtain ⟨bytes, here⟩ := get?_of_mem_discover sound distinct stands member
    obtain ⟨bytes', here'⟩ := get?_of_mem_discover sound distinct stands member'
    exact path_eq_of_text sound here here' same
  have sorted : ((discover disk path excluded).map (·.text)).Pairwise (· ≤ ·) := by
    rw [map_text_discover plain excluded stands]
    exact pairwise_mergeSort_name (fun text => text) _
  exact (sorted.and apart).imp fun ordered => lt_of_le_of_ne ordered.1 ordered.2

end

/-- Below a directory exactly those files are found that have the name of a source or a manifest
and lie in no directory that is excluded or has a dot in front of its name, wherever the directory
itself lies. They come in ascending order of their paths as texts, as visiting one directory after
another finds them. -/
theorem discovery_is_exact {disk : Disk} (path : Path) (excluded : List String)
    {entries : List (String × Tree)} (sound : disk.isSound = true)
    (distinct : disk.tree.hasDistinctNames = true)
    (stands : disk.tree.get? (disk.resolve path).names = some (.directory entries)) :
    let root := disk.resolve path
    let found := discover disk path excluded
    (∀ file, file ∈ found ↔
      ∃ directories name, IsOpenSource entries excluded directories name ∧
        file = ⟨root.start, root.names ++ (directories ++ [name])⟩) ∧
      (found.map (·.text)).Pairwise (· < ·) ∧
      found.map (·.text) = searchBelow excluded ⟨root, entries⟩ :=
  ⟨fun _ => mem_discover_iff sound distinct stands, pairwise_discover sound distinct stands,
    map_text_discover (Disk.isPlain_resolve sound path) excluded stands⟩

/-- The entries of a project with directories of many kinds of names. -/
def mixedEntries : List (String × Tree) :=
  [("vendor.rs", .directory [("a.rs", .file []), ("notes.md", .file [])]),
    ("src", .directory [("main.rs", .file []),
      ("target", .directory [("made.rs", .file [])]),
      ("targets", .directory [("Cargo.toml", .file []),
        (".cache", .directory [("b.rs", .file [])])])]),
    (".git", .directory [("hook.rs", .file [])]),
    (".rs", .file []), ("Cargo.toml.rs", .file []), ("cargo.toml", .file [])]

/-- A project in a directory with a dot in front of its name. -/
def hiddenProject : Disk where
  tree := .directory [(".work", .directory mixedEntries)]
  workingDirectory := [".work"]
  unreadable := []
  unwritable := []

/-- The paths of its files that are looked at, in order. -/
def hiddenSources : List String :=
  ["/.work/.rs", "/.work/Cargo.toml.rs", "/.work/src/main.rs", "/.work/src/targets/Cargo.toml",
    "/.work/vendor.rs/a.rs"]

theorem discovery_is_exact_hiddenProject :
    let root := hiddenProject.resolve (.ofText ".")
    let found := discover hiddenProject (.ofText ".") ["target"]
    hiddenProject.isSound = true ∧ hiddenProject.tree.hasDistinctNames = true ∧
      hiddenProject.tree.get? root.names = some (.directory mixedEntries) ∧
      (∀ file, file ∈ found ↔
        ∃ directories name, IsOpenSource mixedEntries ["target"] directories name ∧
          file = ⟨root.start, root.names ++ (directories ++ [name])⟩) ∧
      (found.map (·.text)).Pairwise (· < ·) ∧ found.map (·.text) = hiddenSources ∧
      searchBelow ["target"] ⟨root, mixedEntries⟩ = hiddenSources := by
  have sound : hiddenProject.isSound = true := by decide
  have distinct : hiddenProject.tree.hasDistinctNames = true := by decide
  have stands : hiddenProject.tree.get? (hiddenProject.resolve (.ofText ".")).names =
      some (.directory mixedEntries) := rfl
  have texts : (discover hiddenProject (.ofText ".") ["target"]).map (·.text) = hiddenSources := by
    have ordered : (hiddenSources.mergeSort fun first second => first ≤ second) = hiddenSources :=
      List.mergeSort_of_pairwise (by decide)
    rw [discover_eq_of_directory (Disk.isPlain_resolve sound _) ["target"] stands,
      map_text_sortPaths]
    exact (mergeSort_eq_of_perm (by decide)).trans ordered
  obtain ⟨exactly, ascending, searched⟩ :=
    discovery_is_exact (.ofText ".") ["target"] sound distinct stands
  exact ⟨sound, distinct, stands, exactly, ascending, texts, searched.symm.trans texts⟩

end CrateAudit.Project

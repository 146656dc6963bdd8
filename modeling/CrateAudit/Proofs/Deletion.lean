/-
This file says what the files of an audit are. Where no directory has two entries of one
name, no file is found twice, and no two scans are of files of one name. Files that are
taken away from a disk are not found any more; all others are found as before, and hold
what they did.
-/

import CrateAudit.Proofs.AuditedFiles
import CrateAudit.Proofs.Merging
import Mathlib.Data.List.Nodup

namespace CrateAudit

/-! ### Names that tell entries apart -/

mutual

/-- Whether no directory of a tree has two entries of one name. -/
def Tree.hasDistinctNames : Tree → Bool
  | .file _ => true
  | .directory entries => Tree.haveDistinctNames entries

/-- The same for the entries of a directory. -/
def Tree.haveDistinctNames : List (String × Tree) → Bool
  | [] => true
  | (name, tree) :: rest =>
    !(rest.map (·.1)).contains name && tree.hasDistinctNames && Tree.haveDistinctNames rest

end

namespace Tree

theorem haveDistinctNames_cons {name : String} {tree : Tree} {rest : List (String × Tree)} :
    haveDistinctNames ((name, tree) :: rest) = true ↔
      (∀ entry ∈ rest, entry.1 ≠ name) ∧ tree.hasDistinctNames = true ∧
        haveDistinctNames rest = true := by
  rw [haveDistinctNames, Bool.and_eq_true, Bool.and_eq_true, Bool.not_eq_true',
    ← Bool.not_eq_true, List.contains_iff_mem, List.mem_map, and_assoc]
  simp only [not_exists, not_and, ne_eq]

theorem distinct_of_lookup {entries : List (String × Tree)}
    (distinct : haveDistinctNames entries = true) {name : String} {tree : Tree}
    (found : entries.lookup name = some tree) : tree.hasDistinctNames = true := by
  induction entries with
  | nil => cases found
  | cons entry rest inductionHypothesis =>
    obtain ⟨own, sub⟩ := entry
    obtain ⟨_, here, later⟩ := haveDistinctNames_cons.mp distinct
    rw [lookup_cons_eq] at found
    split at found
    · cases found
      exact here
    · exact inductionHypothesis later found

theorem distinct_of_get? {tree found : Tree} {place : List String}
    (distinct : tree.hasDistinctNames = true) (stands : tree.get? place = some found) :
    found.hasDistinctNames = true := by
  induction place generalizing tree with
  | nil =>
    cases stands
    exact distinct
  | cons name rest inductionHypothesis =>
    cases tree with
    | file bytes => cases stands
    | directory entries =>
      rw [get?] at stands
      cases lookup : entries.lookup name with
      | none =>
        rw [lookup] at stands
        cases stands
      | some sub =>
        rw [lookup] at stands
        rw [hasDistinctNames] at distinct
        exact inductionHypothesis (distinct_of_lookup distinct lookup) stands

end Tree

namespace Project

/-! ### Files that are found once -/

theorem head?_of_mem_sourcesIn {excluded : List String} {name : String} {tree : Tree}
    {names : List String} (member : names ∈ sourcesIn excluded name tree) :
    names.head? = some name := by
  cases tree with
  | file bytes =>
    rw [sourcesIn] at member
    split at member
    · rw [List.mem_singleton.mp member]
      rfl
    · cases member
  | directory entries =>
    rw [sourcesIn] at member
    split at member
    · cases member
    · obtain ⟨_, _, rfl⟩ := List.mem_map.mp member
      rfl

theorem head?_of_mem_sourcesBelow {excluded : List String} {entries : List (String × Tree)}
    {names : List String} (member : names ∈ sourcesBelow excluded entries) :
    ∃ entry ∈ entries, names.head? = some entry.1 := by
  induction entries with
  | nil => cases member
  | cons entry rest inductionHypothesis =>
    rw [sourcesBelow] at member
    rcases List.mem_append.mp member with here | later
    · exact ⟨entry, List.mem_cons_self, head?_of_mem_sourcesIn here⟩
    · obtain ⟨other, inside, head⟩ := inductionHypothesis later
      exact ⟨other, List.mem_cons_of_mem _ inside, head⟩

mutual

/-- No place is found twice. -/
theorem nodup_sourcesIn {excluded : List String} {name : String} {tree : Tree}
    (distinct : tree.hasDistinctNames = true) : (sourcesIn excluded name tree).Nodup := by
  cases tree with
  | file bytes =>
    rw [sourcesIn]
    split
    · exact List.pairwise_singleton _ _
    · exact List.nodup_nil
  | directory entries =>
    rw [sourcesIn]
    split
    · exact List.nodup_nil
    · rw [Tree.hasDistinctNames] at distinct
      exact (nodup_sourcesBelow distinct).map fun _ _ same => (List.cons.inj same).2

theorem nodup_sourcesBelow {excluded : List String} {entries : List (String × Tree)}
    (distinct : Tree.haveDistinctNames entries = true) :
    (sourcesBelow excluded entries).Nodup := by
  cases entries with
  | nil => exact List.nodup_nil
  | cons entry rest =>
    obtain ⟨name, tree⟩ := entry
    obtain ⟨apart, here, later⟩ := Tree.haveDistinctNames_cons.mp distinct
    rw [sourcesBelow]
    refine List.nodup_append.mpr ⟨nodup_sourcesIn here, nodup_sourcesBelow later, ?_⟩
    rintro names member names' member' rfl
    obtain ⟨other, inside, head⟩ := head?_of_mem_sourcesBelow member'
    rw [head?_of_mem_sourcesIn member] at head
    exact apart other inside (Option.some.inj head).symm

end

variable {settings : Settings} {disk : Disk} {root : Path} {target : String}

theorem nodup_discover (distinct : disk.tree.hasDistinctNames = true) (plain : root.IsPlain)
    (excluded : List String) : (discover disk root excluded).Nodup := by
  rw [discover_eq plain]
  split
  · rename_i entries stands
    have below := Tree.distinct_of_get? distinct stands
    rw [Tree.hasDistinctNames] at below
    rw [sortPaths, (List.mergeSort_perm _ _).nodup_iff]
    exact (nodup_sourcesBelow below).map fun names names' same =>
      List.append_cancel_left (Path.mk.inj same).2
  · split
    · exact List.pairwise_singleton _ _
    · exact List.nodup_nil
  · exact List.nodup_nil

/-- The scans of an audit are of different files. -/
theorem haveDistinctPaths_scansAt (sound : disk.isSound = true)
    (distinct : disk.tree.hasDistinctNames = true) :
    HaveDistinctPaths (scansAt settings disk target) := by
  have plain := Disk.isPlain_resolve sound (.ofText target)
  rw [HaveDistinctPaths, scansAt, scansOf_scanFiles, List.pairwise_filterMap]
  refine (nodup_discover distinct plain settings.excludedDirectories).imp_of_mem ?_
  intro path path' found found' apart scan read scan' read' same
  rw [toOption_eq_some, scanFile_eq_ok] at read read'
  obtain ⟨content, readable, rfl⟩ := read
  obtain ⟨content', readable', rfl⟩ := read'
  obtain ⟨start, plainPath, _⟩ := isBelow_of_mem_discover sound plain found
  obtain ⟨start', plainPath', below'⟩ := isBelow_of_mem_discover sound plain found'
  obtain ⟨_, bytes, stands, _⟩ := (Disk.readText_eq_ok plainPath).mp readable
  obtain ⟨_, bytes', stands', _⟩ := (Disk.readText_eq_ok plainPath').mp readable'
  obtain ⟨_, names⟩ := path
  obtain ⟨_, names'⟩ := path'
  subst start start'
  exact apart (congrArg _ (shownName_injective sound plain stands stands' below' same))

/-- Each scan of an audit lists what it found in order. -/
theorem isOrdered_of_mem_scansAt {scan : FileScan}
    (member : scan ∈ scansAt settings disk target) : scan.IsOrdered := by
  obtain ⟨path, _, read⟩ := mem_scansOf.mp member
  obtain ⟨content, _, rfl⟩ := scanFile_eq_ok.mp read
  exact isOrdered_scanSource _ _ _

end Project

/-! ### Files that are taken away -/

namespace Tree

mutual

/-- What is left of a tree when the files at some places in it are taken away. -/
def keepFiles (keeps : List String → Bool) : Tree → Tree
  | .file bytes => .file bytes
  | .directory entries => .directory (keepEntries keeps entries)

/-- What is left of the entries of a directory. -/
def keepEntries (keeps : List String → Bool) : List (String × Tree) → List (String × Tree)
  | [] => []
  | (name, tree) :: rest =>
    if tree.isDirectory || keeps [name] then
      (name, tree.keepFiles fun place => keeps (name :: place)) :: keepEntries keeps rest
    else keepEntries keeps rest

end

theorem lookup_keepEntries {keeps : List String → Bool} {entries : List (String × Tree)}
    (distinct : haveDistinctNames entries = true) (name : String) :
    (keepEntries keeps entries).lookup name =
      (entries.lookup name).bind fun tree =>
        if tree.isDirectory || keeps [name] then
          some (tree.keepFiles fun place => keeps (name :: place))
        else none := by
  induction entries with
  | nil => rfl
  | cons entry rest inductionHypothesis =>
    obtain ⟨own, tree⟩ := entry
    obtain ⟨apart, _, later⟩ := haveDistinctNames_cons.mp distinct
    have absent : rest.lookup own = none := by
      rw [List.lookup_eq_none_iff]
      intro other inside
      rw [bne_iff_ne]
      exact (apart other inside).symm
    rw [keepEntries, lookup_cons_eq]
    by_cases same : name = own
    · subst same
      rw [if_pos rfl, Option.bind_some]
      split
      · rw [lookup_cons_eq, if_pos rfl]
      · rw [inductionHypothesis later, absent, Option.bind_none]
    · rw [if_neg same]
      split
      · rw [lookup_cons_eq, if_neg same, inductionHypothesis later]
      · exact inductionHypothesis later

/-- What stands below a tree when files are taken away: the files that are kept, and directories
with what is left of them. -/
theorem get?_keepFiles {keeps : List String → Bool} {tree : Tree}
    (distinct : tree.hasDistinctNames = true) {place : List String} (nonempty : place ≠ []) :
    (tree.keepFiles keeps).get? place =
      (tree.get? place).bind fun found =>
        if found.isDirectory || keeps place then
          some (found.keepFiles fun rest => keeps (place ++ rest))
        else none := by
  induction place generalizing tree keeps with
  | nil => exact absurd rfl nonempty
  | cons name rest inductionHypothesis =>
    cases tree with
    | file bytes => rfl
    | directory entries =>
      rw [hasDistinctNames] at distinct
      rw [keepFiles, get?, get?, lookup_keepEntries distinct]
      cases lookup : entries.lookup name with
      | none => rfl
      | some sub =>
        rw [Option.bind_some]
        cases rest with
        | nil =>
          by_cases kept : (sub.isDirectory || keeps [name]) = true
          · rw [if_pos kept]
            exact (if_pos kept).symm
          · rw [if_neg kept]
            exact (if_neg kept).symm
        | cons next others =>
          cases sub with
          | file bytes =>
            rw [Tree.isDirectory, Bool.false_or]
            cases keeps [name] <;> rfl
          | directory entries' =>
            exact inductionHypothesis (distinct_of_lookup distinct lookup)
              (List.cons_ne_nil next others)

theorem bytes?_keepFiles (keeps : List String → Bool) (tree : Tree) :
    (tree.keepFiles keeps).bytes? = tree.bytes? := by
  cases tree <;> rfl

/-- A directory stays, with what is left of it. -/
theorem get?_keepFiles_of_directory {keeps : List String → Bool} {tree : Tree}
    (distinct : tree.hasDistinctNames = true) {place : List String}
    {entries : List (String × Tree)} (stands : tree.get? place = some (.directory entries)) :
    (tree.keepFiles keeps).get? place =
      some (.directory (keepEntries (fun rest => keeps (place ++ rest)) entries)) := by
  cases place with
  | nil =>
    cases stands
    rfl
  | cons name rest =>
    rw [get?_keepFiles distinct (List.cons_ne_nil name rest), stands]
    rfl

/-- A place from which nothing is taken away shows what it did. -/
theorem view_keepFiles {keeps : List String → Bool} {tree : Tree}
    (distinct : tree.hasDistinctNames = true) {place : List String} (kept : keeps place = true) :
    (tree.keepFiles keeps).view place = tree.view place := by
  cases place with
  | nil => exact congrArg some (bytes?_keepFiles keeps tree)
  | cons name rest =>
    rw [view, view, get?_keepFiles distinct (List.cons_ne_nil name rest)]
    simp only [kept, Bool.or_true, if_true]
    cases tree.get? (name :: rest) with
    | none => rfl
    | some found => exact congrArg some (bytes?_keepFiles _ found)

end Tree

/-- The disk without the files that may not be read. -/
def Disk.withoutUnreadable (disk : Disk) : Disk :=
  { disk with
    tree := disk.tree.keepFiles fun place => !disk.unreadable.contains place
    unreadable := [] }

namespace Project

mutual

/-- The files to look at in what is left of a tree are those that are left. -/
theorem sourcesIn_keepFiles {excluded : List String} {name : String}
    {keeps : List String → Bool} {tree : Tree}
    (kept : (tree.isDirectory || keeps [name]) = true) :
    sourcesIn excluded name (tree.keepFiles fun place => keeps (name :: place)) =
      (sourcesIn excluded name tree).filter keeps := by
  cases tree with
  | file bytes =>
    have own : keeps [name] = true := kept
    rw [Tree.keepFiles, sourcesIn]
    split
    · rw [List.filter_cons_of_pos own, List.filter_nil]
    · rfl
  | directory entries =>
    rw [Tree.keepFiles, sourcesIn, sourcesIn]
    split
    · rfl
    · rw [sourcesBelow_keepEntries, List.filter_map]
      rfl

theorem sourcesBelow_keepEntries {excluded : List String} {keeps : List String → Bool}
    {entries : List (String × Tree)} :
    sourcesBelow excluded (Tree.keepEntries keeps entries) =
      (sourcesBelow excluded entries).filter keeps := by
  cases entries with
  | nil => rfl
  | cons entry rest =>
    obtain ⟨name, tree⟩ := entry
    rw [Tree.keepEntries, sourcesBelow, List.filter_append]
    split
    · rename_i kept
      rw [sourcesBelow, sourcesIn_keepFiles kept, sourcesBelow_keepEntries]
    · rename_i taken
      rw [sourcesBelow_keepEntries]
      cases tree with
      | directory entries' => exact absurd rfl taken
      | file bytes =>
        have own : ¬ keeps [name] = true := taken
        rw [sourcesIn]
        split
        · rw [List.filter_cons_of_neg own]
          rfl
        · rfl

end

variable {settings : Settings} {disk : Disk} {root : Path} {target : String}

/-- Without the files that may not be read, the others are found. -/
theorem discover_withoutUnreadable (distinct : disk.tree.hasDistinctNames = true)
    (plain : root.IsPlain) (excluded : List String) :
    (discover disk.withoutUnreadable root excluded).Perm
      ((discover disk root excluded).filter
        fun path => !disk.unreadable.contains path.names) := by
  have standing : disk.withoutUnreadable.tree =
      disk.tree.keepFiles fun place => !disk.unreadable.contains place := rfl
  rw [discover_eq plain, discover_eq plain, standing]
  cases stands : disk.tree.get? root.names with
  | none =>
    have nonempty : root.names ≠ [] := fun empty => by
      rw [empty] at stands
      cases stands
    rw [Tree.get?_keepFiles distinct nonempty, stands]
    exact List.Perm.refl _
  | some found =>
    cases found with
    | directory entries =>
      rw [Tree.get?_keepFiles_of_directory distinct stands]
      simp only
      rw [sourcesBelow_keepEntries]
      refine (List.mergeSort_perm _ _).trans (.trans ?_ ((List.mergeSort_perm _ _).filter _).symm)
      rw [List.filter_map]
      exact List.Perm.refl _
    | file bytes =>
      by_cases empty : root.names = []
      · -- a disk that is itself a file has no name to look at
        have nameless : isSourceFile root.name = false := by
          rw [Path.name, empty]
          decide
        have whole : disk.tree = .file bytes := by
          rw [empty] at stands
          exact Option.some.inj stands
        rw [whole, empty, nameless]
        exact List.Perm.refl _
      · rw [Tree.get?_keepFiles distinct empty, stands, Option.bind_some, Tree.isDirectory,
          Bool.false_or]
        have own : ∀ path ∈ (if isSourceFile root.name then [root] else []), path = root := by
          intro path member
          split at member
          · exact List.mem_singleton.mp member
          · cases member
        cases kept : !disk.unreadable.contains root.names with
        | true =>
          refine .of_eq (List.filter_eq_self.mpr fun path member => ?_).symm
          rw [own path member, kept]
        | false =>
          refine .of_eq (List.filter_eq_nil_iff.mpr fun path member => ?_).symm
          rw [own path member, kept]
          exact Bool.false_ne_true

/-- A file that may be read is scanned as before, and one that may not be read never was. -/
theorem scanFile_withoutUnreadable (distinct : disk.tree.hasDistinctNames = true) {path : Path}
    (plain : path.IsPlain) :
    (scanFile settings disk root path).toOption =
      if path.names ∈ disk.unreadable then none
      else (scanFile settings disk.withoutUnreadable root path).toOption := by
  refine Option.ext fun scan => ?_
  rw [toOption_eq_some, scanFile_eq_ok]
  simp only [Disk.readText_eq_ok plain]
  split
  · rename_i denied
    refine iff_of_false ?_ (Option.some_ne_none scan).symm
    rintro ⟨_, ⟨readable, _⟩, _⟩
    exact readable denied
  · rename_i readable
    have kept : (!disk.unreadable.contains path.names) = true := by simpa using readable
    have same : disk.withoutUnreadable.tree.view path.names = disk.tree.view path.names :=
      Tree.view_keepFiles distinct kept
    have allowed : path.names ∉ disk.withoutUnreadable.unreadable := List.not_mem_nil
    rw [toOption_eq_some, scanFile_eq_ok]
    simp only [Disk.readText_eq_ok plain, same, readable, allowed, not_false_eq_true, true_and]

/-- Without the files that may not be read, an audit scans the same files in some order. -/
theorem scansAt_withoutUnreadable (settings : Settings) (target : String)
    (sound : disk.isSound = true) (distinct : disk.tree.hasDistinctNames = true) :
    (scansAt settings disk.withoutUnreadable target).Perm (scansAt settings disk target) := by
  have plain := Disk.isPlain_resolve sound (.ofText target)
  have root : disk.withoutUnreadable.resolve (.ofText target) = disk.resolve (.ofText target) :=
    rfl
  have found := discover_withoutUnreadable distinct plain settings.excludedDirectories
  rw [scansAt, scansAt, scansOf_scanFiles, scansOf_scanFiles, root]
  refine (found.filterMap _).trans (.of_eq ?_)
  rw [List.filterMap_filter]
  refine List.filterMap_congr fun path member => ?_
  obtain ⟨_, plainPath, _⟩ := isBelow_of_mem_discover sound plain member
  rw [scanFile_withoutUnreadable distinct plainPath]
  by_cases denied : path.names ∈ disk.unreadable <;> simp [denied]

end Project

end CrateAudit

/-
This file finds the files that an audit looks at by visiting one directory after another.
A visit goes through the files of a directory. Of its directories it strikes those that
are passed over, and puts the others, in the order of their names, before those that wait.
-/

import CrateAudit.Project.Discovery

namespace CrateAudit

/-! ### The number of directories -/

mutual

/-- How many directories a tree has, itself among them. -/
def Tree.directoryCount : Tree → Nat
  | .file _ => 0
  | .directory entries => Tree.directoryCountBelow entries + 1

/-- How many directories the entries of a directory have. -/
def Tree.directoryCountBelow : List (String × Tree) → Nat
  | [] => 0
  | (_, tree) :: rest => tree.directoryCount + Tree.directoryCountBelow rest

end

namespace Project

/-- A directory: the path that leads to it, and its entries. -/
structure Directory where
  path : Path
  entries : List (String × Tree)

namespace Directory

/-- The files of the directory itself that are looked at, as texts of their paths. -/
def sources (directory : Directory) : List String :=
  directory.entries.filterMap fun
    | (name, .file _) => if isSourceName name then some (directory.path.child name).text else none
    | (_, .directory _) => none

/-- The directories among entries, with their own entries. -/
def directoriesOf (entries : List (String × Tree)) : List (String × List (String × Tree)) :=
  entries.filterMap fun
    | (_, .file _) => none
    | (name, .directory entries) => some (name, entries)

/-- The directories in the directory that are visited after it. -/
def subdirectories (excluded : List String) (directory : Directory) : List Directory :=
  (((directoriesOf directory.entries).filter fun entry => !isPruned excluded entry.1).mergeSort
    fun first second => first.1 ≤ second.1).map
      fun entry => ⟨directory.path.child entry.1, entry.2⟩

theorem directoriesOf_file (name : String) (bytes : Bytes) (rest : List (String × Tree)) :
    directoriesOf ((name, .file bytes) :: rest) = directoriesOf rest := rfl

theorem directoriesOf_directory (name : String) (entries rest : List (String × Tree)) :
    directoriesOf ((name, .directory entries) :: rest) = (name, entries) :: directoriesOf rest :=
  rfl

/-- Up to their order, the directories that are visited are those that are not struck. -/
theorem subdirectories_perm (excluded : List String) (directory : Directory) :
    (directory.subdirectories excluded).Perm
      (((directoriesOf directory.entries).filter fun entry => !isPruned excluded entry.1).map
        fun entry => ⟨directory.path.child entry.1, entry.2⟩) :=
  (List.mergeSort_perm _ _).map _

/-- How many directories there are in some directories, themselves among them. -/
def countAll : List Directory → Nat
  | [] => 0
  | directory :: rest => Tree.directoryCountBelow directory.entries + 1 + countAll rest

theorem countAll_append (first second : List Directory) :
    countAll (first ++ second) = countAll first + countAll second := by
  induction first with
  | nil => exact (Nat.zero_add _).symm
  | cons directory rest inductionHypothesis =>
    rw [List.cons_append, countAll, countAll, inductionHypothesis]
    exact (Nat.add_assoc _ _ _).symm

theorem countAll_of_perm {first second : List Directory} (perm : first.Perm second) :
    countAll first = countAll second := by
  induction perm with
  | nil => rfl
  | cons directory _ inductionHypothesis => rw [countAll, countAll, inductionHypothesis]
  | swap directory other rest => exact Nat.add_left_comm _ _ _
  | trans _ _ inductionHypothesis inductionHypothesis' =>
    exact inductionHypothesis.trans inductionHypothesis'

/-- A directory has at least the directories that are visited after it. -/
theorem countAll_subdirectories_le (excluded : List String) (directory : Directory) :
    countAll (directory.subdirectories excluded) ≤
      Tree.directoryCountBelow directory.entries := by
  obtain ⟨path, entries⟩ := directory
  rw [countAll_of_perm (subdirectories_perm excluded ⟨path, entries⟩)]
  simp only
  induction entries with
  | nil => exact Nat.le_refl 0
  | cons entry rest inductionHypothesis =>
    obtain ⟨name, tree⟩ := entry
    rw [Tree.directoryCountBelow]
    cases tree with
    | file bytes =>
      rw [directoriesOf_file]
      exact Nat.le_add_left_of_le inductionHypothesis
    | directory below =>
      rw [directoriesOf_directory, Tree.directoryCount, List.filter_cons]
      split
      · exact Nat.add_le_add_left inductionHypothesis _
      · exact Nat.le_add_left_of_le inductionHypothesis

end Directory

/-- A search under way: the directories that wait for a visit, and what has been found. -/
structure Search where
  waiting : List Directory
  found : List String

namespace Search

/-- What is found in the end. -/
def run (excluded : List String) : Search → List String
  | ⟨[], found⟩ => found
  | ⟨directory :: waiting, found⟩ =>
    run excluded ⟨directory.subdirectories excluded ++ waiting, found ++ directory.sources⟩
termination_by search => Directory.countAll search.waiting
decreasing_by
  have fewer := directory.countAll_subdirectories_le excluded
  rw [Directory.countAll_append, Directory.countAll]
  omega

end Search

/-- The files to look at below a directory, as texts of their paths in order. -/
def searchBelow (excluded : List String) (directory : Directory) : List String :=
  (Search.run excluded ⟨[directory], []⟩).mergeSort fun first second => first ≤ second

end Project

end CrateAudit

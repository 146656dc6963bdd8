/-
This file says what a place of a tree shows before and after a file is put where a file
stood: the new bytes at that place, and the same as before at every other one. No
directory comes or goes, so whatever is found by walking along names is found again.
-/

import CrateAudit.Project.Discovery

namespace CrateAudit

namespace Tree

/-! ### What a place shows -/

/-- The bytes of a file. -/
def bytes? : Tree → Option Bytes
  | .file bytes => some bytes
  | .directory _ => none

/-- What a place shows: nothing, or the bytes of a file, or that it is a directory. -/
def view (tree : Tree) (place : List String) : Option (Option Bytes) :=
  (tree.get? place).map bytes?

theorem view_eq_file {tree : Tree} {place : List String} {bytes : Bytes} :
    tree.view place = some (some bytes) ↔ tree.get? place = some (.file bytes) := by
  unfold view
  cases tree.get? place with
  | none => simp
  | some found => cases found <;> simp [bytes?]

theorem view_eq_directory {tree : Tree} {place : List String} :
    tree.view place = some none ↔ ∃ entries, tree.get? place = some (.directory entries) := by
  unfold view
  cases tree.get? place with
  | none => simp
  | some found => cases found <;> simp [bytes?]

theorem view_cons_directory (entries : List (String × Tree)) (name : String)
    (rest : List String) :
    (directory entries).view (name :: rest) = (entries.lookup name).bind (·.view rest) := by
  unfold view
  rw [get?]
  cases entries.lookup name <;> rfl

/-- A file below a tree stands below one of the entries of a directory. -/
theorem exists_entry_of_view_cons {tree : Tree} {name : String} {rest : List String} {old : Bytes}
    (stands : tree.view (name :: rest) = some (some old)) :
    ∃ entries sub, tree = directory entries ∧ entries.lookup name = some sub ∧
      sub.view rest = some (some old) := by
  cases tree with
  | file bytes => cases stands
  | directory entries =>
    rw [view_cons_directory] at stands
    obtain ⟨sub, found, stands⟩ := Option.bind_eq_some_iff.mp stands
    exact ⟨entries, sub, rfl, found, stands⟩

/-! ### Putting a file where a file stands -/

theorem lookup_cons_eq (entry : String × Tree) (entries : List (String × Tree)) (name : String) :
    (entry :: entries).lookup name =
      if name = entry.1 then some entry.2 else entries.lookup name := by
  rw [List.lookup_cons]
  by_cases same : name = entry.1
  · simp [same]
  · rw [beq_false_of_ne same, if_neg same]

theorem lookup_setEntry (name other : String) (tree : Tree) (entries : List (String × Tree)) :
    (setEntry name tree entries).lookup other =
      if other = name then some tree else entries.lookup other := by
  induction entries with
  | nil => rw [setEntry, lookup_cons_eq]
  | cons entry rest inductionHypothesis =>
    rw [setEntry]
    split
    · rename_i own
      rw [beq_iff_eq] at own
      rw [lookup_cons_eq, lookup_cons_eq, own]
      by_cases same : other = name
      · rw [if_pos same, if_pos same]
      · rw [if_neg same, if_neg same, if_neg same]
    · rename_i own
      rw [beq_iff_eq] at own
      rw [lookup_cons_eq, lookup_cons_eq, inductionHypothesis]
      by_cases here : other = entry.1
      · rw [if_pos here, if_neg fun same => own (here.symm.trans same), if_pos here]
      · rw [if_neg here, if_neg here]

/-- A file put where a file stands shows its bytes, and every other place shows what it did. -/
theorem view_set_file {tree : Tree} {place other : List String} {old new : Bytes}
    (stands : tree.view place = some (some old)) :
    (set (.file new) place tree).view other =
      if other = place then some (some new) else tree.view other := by
  induction place generalizing tree other with
  | nil =>
    rw [view_eq_file] at stands
    cases stands
    cases other with
    | nil => rfl
    | cons name rest => rfl
  | cons name rest inductionHypothesis =>
    obtain ⟨entries, sub, rfl, found, below⟩ := exists_entry_of_view_cons stands
    simp only [set, found, Option.getD_some]
    cases other with
    | nil => rfl
    | cons first others =>
      rw [view_cons_directory, view_cons_directory, lookup_setEntry]
      by_cases same : first = name
      · subst same
        rw [if_pos rfl, Option.bind_some, inductionHypothesis below, found, Option.bind_some]
        by_cases all : others = rest <;> simp [all]
      · rw [if_neg same, if_neg fun all => same (List.cons.inj all).1]

end Tree

namespace Project

/-- An entry that holds the same files to look at may take the place of another. -/
theorem sourcesBelow_setEntry {excluded : List String} {name : String} {old new : Tree}
    {entries : List (String × Tree)} (found : entries.lookup name = some old)
    (same : sourcesIn excluded name new = sourcesIn excluded name old) :
    sourcesBelow excluded (Tree.setEntry name new entries) = sourcesBelow excluded entries := by
  induction entries with
  | nil => cases found
  | cons entry rest inductionHypothesis =>
    rw [Tree.setEntry]
    rw [Tree.lookup_cons_eq] at found
    split
    · rename_i own
      rw [beq_iff_eq] at own
      rw [if_pos own.symm] at found
      cases found
      rw [sourcesBelow, sourcesBelow, own, same]
    · rename_i own
      rw [beq_iff_eq] at own
      rw [if_neg (Ne.symm own)] at found
      rw [sourcesBelow, sourcesBelow, inductionHypothesis found]

/-- The files to look at stay the same when a file is put where a file stands. -/
theorem sourcesIn_set_file {excluded : List String} {name : String} {tree : Tree}
    {place : List String} {old new : Bytes} (stands : tree.view place = some (some old)) :
    sourcesIn excluded name (Tree.set (.file new) place tree) = sourcesIn excluded name tree := by
  induction place generalizing tree name with
  | nil =>
    rw [Tree.view_eq_file] at stands
    cases stands
    simp only [Tree.set, sourcesIn]
  | cons first rest inductionHypothesis =>
    obtain ⟨entries, sub, rfl, found, below⟩ := Tree.exists_entry_of_view_cons stands
    simp only [Tree.set, found, Option.getD_some]
    rw [sourcesIn, sourcesIn, sourcesBelow_setEntry found (inductionHypothesis below)]

end Project

end CrateAudit

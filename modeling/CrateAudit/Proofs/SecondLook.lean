/-
This file says what a look at a disk finds after a repair: the same files at the same
places, each with the bytes that stand there now. Names stay proper, and a path leads
where it led before.
-/

import CrateAudit.Proofs.Outcomes

namespace CrateAudit

namespace Tree

/-! ### One file -/

/-- Something found by walking along names is what it was, or it holds the file that was put
there. -/
theorem get?_set_file {tree : Tree} {place : List String} {old : Bytes}
    (stands : tree.view place = some (some old)) (new : Bytes) (names : List String) :
    (set (.file new) place tree).get? names = tree.get? names ∨
      ∃ rest sub, tree.get? names = some sub ∧ sub.view rest = some (some old) ∧
        (set (.file new) place tree).get? names = some (set (.file new) rest sub) := by
  induction names generalizing tree place with
  | nil => exact Or.inr ⟨place, tree, rfl, stands, rfl⟩
  | cons name names inductionHypothesis =>
    cases place with
    | nil =>
      rw [view_eq_file] at stands
      cases stands
      exact Or.inl rfl
    | cons first rest =>
      obtain ⟨entries, sub, rfl, found, below⟩ := exists_entry_of_view_cons stands
      simp only [set, found, Option.getD_some, get?, lookup_setEntry]
      by_cases same : name = first
      · subst same
        rw [if_pos rfl, found]
        exact inductionHypothesis below
      · rw [if_neg same]
        exact Or.inl rfl

theorem haveProperNames_setEntry {name : String} {old new : Tree}
    {entries : List (String × Tree)} (found : entries.lookup name = some old)
    (proper : haveProperNames entries = true) (own : new.hasProperNames = true) :
    haveProperNames (setEntry name new entries) = true := by
  induction entries with
  | nil => cases found
  | cons entry rest inductionHypothesis =>
    obtain ⟨first, sub⟩ := entry
    rw [haveProperNames, Bool.and_eq_true, Bool.and_eq_true] at proper
    rw [lookup_cons_eq] at found
    rw [setEntry]
    split
    · rename_i same
      rw [beq_iff_eq] at same
      simp only at same
      rw [haveProperNames, ← same, proper.1.1, own, proper.2]
      rfl
    · rename_i other
      rw [beq_iff_eq] at other
      rw [if_neg (Ne.symm other)] at found
      rw [haveProperNames, proper.1.1, proper.1.2, inductionHypothesis found proper.2]
      rfl

theorem hasProperNames_set_file {tree : Tree} {place : List String} {old new : Bytes}
    (proper : tree.hasProperNames = true) (stands : tree.view place = some (some old)) :
    (set (.file new) place tree).hasProperNames = true := by
  induction place generalizing tree with
  | nil => rfl
  | cons first rest inductionHypothesis =>
    obtain ⟨entries, sub, rfl, found, below⟩ := exists_entry_of_view_cons stands
    rw [hasProperNames] at proper
    have inside := (proper_of_lookup proper found).2
    simp only [set, found, Option.getD_some, hasProperNames]
    exact haveProperNames_setEntry found proper (inductionHypothesis inside below)

end Tree

namespace Project

/-- No file to look at comes or goes when a file is put where a file stands. -/
theorem discover_set_file {disk : Disk} {root : Path} (plain : root.IsPlain)
    (excluded : List String) {place : List String} {old : Bytes}
    (stands : disk.tree.view place = some (some old)) (new : Bytes) :
    discover { disk with tree := Tree.set (.file new) place disk.tree } root excluded =
      discover disk root excluded := by
  rw [discover_eq plain, discover_eq plain]
  simp only
  rcases Tree.get?_set_file stands new root.names with same |
    ⟨rest, sub, found, inside, put⟩
  · rw [same]
  · rw [found, put]
    cases sub with
    | file bytes =>
      cases rest with
      | nil => rfl
      | cons name rest => cases inside
    | directory entries =>
      cases rest with
      | nil => cases inside
      | cons name rest =>
        rw [Tree.view_cons_directory, Option.bind_eq_some_iff] at inside
        obtain ⟨below, entry, inside⟩ := inside
        simp only [Tree.set, entry, Option.getD_some]
        rw [sourcesBelow_setEntry entry (sourcesIn_set_file inside)]

/-! ### Several files -/

/-- The same holds for several files that are put where files stand. -/
theorem discover_setAll {disk : Disk} {root : Path} (plain : root.IsPlain)
    (excluded : List String) {writes : List (List String × Bytes)}
    (stand : ∀ write ∈ writes, ∃ old, disk.tree.view write.1 = some (some old)) :
    discover { disk with tree := disk.tree.setAll writes } root excluded =
      discover disk root excluded := by
  induction writes generalizing disk with
  | nil => rfl
  | cons write rest inductionHypothesis =>
    obtain ⟨place, bytes⟩ := write
    obtain ⟨old, here⟩ := stand _ List.mem_cons_self
    rw [Tree.setAll, ← discover_set_file plain excluded here bytes]
    refine @inductionHypothesis { disk with tree := Tree.set (.file bytes) place disk.tree }
      fun other member => ?_
    obtain ⟨own, there⟩ := stand other (List.mem_cons_of_mem _ member)
    exact (Tree.sameShape_set_file here bytes).exists_file there

theorem hasProperNames_setAll {tree : Tree} (proper : tree.hasProperNames = true)
    {writes : List (List String × Bytes)}
    (stand : ∀ write ∈ writes, ∃ old, tree.view write.1 = some (some old)) :
    (tree.setAll writes).hasProperNames = true := by
  induction writes generalizing tree with
  | nil => exact proper
  | cons write rest inductionHypothesis =>
    obtain ⟨place, bytes⟩ := write
    obtain ⟨old, here⟩ := stand _ List.mem_cons_self
    rw [Tree.setAll]
    refine inductionHypothesis (Tree.hasProperNames_set_file proper here) fun other member => ?_
    obtain ⟨own, there⟩ := stand other (List.mem_cons_of_mem _ member)
    exact (Tree.sameShape_set_file here bytes).exists_file there

/-! ### After a repair -/

variable {settings : Settings} {disk : Disk} {target : String} {options : RepairOptions}

/-- A disk stays sound. -/
theorem isSound_repair (settings : Settings) (target : String)
    (sound : disk.isSound = true) (wet : options.dryRun = false) :
    (repair settings disk target options).disk.isSound = true := by
  rw [(repair_of_wet settings target sound wet).1]
  rw [Disk.isSound, Bool.and_eq_true] at sound ⊢
  refine ⟨hasProperNames_setAll sound.1 (stand_writesOf ?_), sound.2⟩
  rw [Disk.isSound, Bool.and_eq_true]
  exact sound

/-- The same files are looked at. -/
theorem discover_repair (settings : Settings) (target : String)
    (sound : disk.isSound = true) (wet : options.dryRun = false) {root : Path}
    (plain : root.IsPlain) (excluded : List String) :
    discover (repair settings disk target options).disk root excluded =
      discover disk root excluded := by
  rw [(repair_of_wet settings target sound wet).1]
  exact discover_setAll plain excluded (stand_writesOf sound)

/-- A target leads where it led. -/
theorem resolve_repair (settings : Settings) (target : String)
    (sound : disk.isSound = true) (wet : options.dryRun = false) (path : Path) :
    (repair settings disk target options).disk.resolve path = disk.resolve path := by
  rw [(repair_of_wet settings target sound wet).1]
  rfl

end Project

end CrateAudit

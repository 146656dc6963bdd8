/-
This file says that an audit does not depend on how its work is spread. Several workers
may finish the files in any order, and files that cannot be read may be among them: the
results add up to what an audit finds that scans one file after another on a disk
without the files that cannot be read.
-/

import CrateAudit.Project.Pool
import CrateAudit.Proofs.Deletion
import CrateAudit.Proofs.ReadSettings
import Mathlib.Logic.Relation

namespace CrateAudit

/-! ### The number of workers -/

namespace Project

theorem scanSource_withMaxWorkers (settings : Settings) (count : Nat) (source : Source)
    (testPath : Option String) :
    scanSource { settings with maxWorkers := count } source testPath =
      scanSource settings source testPath := by
  have scanned : Scan.rustFile { settings with maxWorkers := count } = Scan.rustFile settings :=
    Scan.rustFile_congr rfl rfl rfl
  rw [scanSource, scanSource, scanned]
  rfl

/-- The scans of an audit do not depend on the number of workers in the settings. -/
theorem scansAt_withMaxWorkers (settings : Settings) (count : Nat) (disk : Disk)
    (target : String) :
    scansAt { settings with maxWorkers := count } disk target =
      scansAt settings disk target := by
  have scanned (root path : Path) : scanFile { settings with maxWorkers := count } disk root path =
      scanFile settings disk root path := by
    simp only [scanFile, scanSource_withMaxWorkers]
  simp only [scansAt, scanFiles, scanned]

/-! ### Runs of several workers -/

namespace Pool

variable {settings : Settings} {disk : Disk} {root : Path} {workers : Nat} {pool pool' : Pool}

/-- What a number of workers can do in several steps. -/
def Run (settings : Settings) (disk : Disk) (root : Path) (workers : Nat) : Pool → Pool → Prop :=
  Relation.ReflTransGen (Step settings disk root workers)

/-- What is collected, and what will be in the end. -/
def outcomes (settings : Settings) (disk : Disk) (root : Path) (pool : Pool) :
    List FileOutcome :=
  pool.collected ++ (pool.atHand ++ scanFiles settings disk root (pool.inWork ++ pool.waiting))

/-- No step loses a result or adds one. -/
theorem Step.outcomes_perm (step : Step settings disk root workers pool pool') :
    (outcomes settings disk root pool).Perm (outcomes settings disk root pool') := by
  cases step with
  | take path waiting inWork atHand collected free =>
    exact .append_left _ (.append_left _ (List.perm_middle.map _))
  | finish path waiting before after atHand collected =>
    simp only [outcomes, scanFiles, List.map_append, List.map_cons, List.append_assoc,
      List.cons_append]
    refine .append_left _ ?_
    rw [← List.append_assoc atHand, ← List.append_assoc atHand]
    exact List.perm_middle
  | collect outcome waiting inWork before after collected =>
    simp only [outcomes, List.append_assoc, List.cons_append, List.nil_append]
    exact .append_left _ List.perm_middle

theorem Run.outcomes_perm (run : Run settings disk root workers pool pool') :
    (outcomes settings disk root pool).Perm (outcomes settings disk root pool') := by
  induction run with
  | refl => exact .refl _
  | tail _ step inductionHypothesis => exact inductionHypothesis.trans step.outcomes_perm

/-- When all is collected, there is one result for each file. -/
theorem Run.collected_perm {paths : List Path}
    (run : Run settings disk root workers (start paths) pool) (done : pool.isDone = true) :
    pool.collected.Perm (scanFiles settings disk root paths) := by
  have all := run.outcomes_perm
  obtain ⟨waiting, inWork, atHand, collected⟩ := pool
  simp only [isDone, Bool.and_eq_true, List.isEmpty_iff] at done
  obtain ⟨⟨rfl, rfl⟩, rfl⟩ := done
  simpa [outcomes, start, scanFiles] using all.symm

/-- A worker can do all files that wait before anything is collected. -/
theorem run_finish (some : 0 < workers) (paths : List Path) (atHand : List FileOutcome) :
    Run settings disk root workers ⟨paths, [], atHand, []⟩
      ⟨[], [], (scanFiles settings disk root paths).reverse ++ atHand, []⟩ := by
  induction paths generalizing atHand with
  | nil => exact .refl
  | cons path rest inductionHypothesis =>
    have later := inductionHypothesis ((path, scanFile settings disk root path) :: atHand)
    rw [scanFiles, List.map_cons, List.reverse_cons, List.append_assoc]
    exact .head (.take path rest [] atHand [] some)
      (.head (.finish path rest [] [] atHand []) later)

/-- Results at hand can be collected in every order. -/
theorem run_collect {atHand order : List FileOutcome} (perm : order.Perm atHand)
    (collected : List FileOutcome) :
    Run settings disk root workers ⟨[], [], atHand, collected⟩
      ⟨[], [], [], collected ++ order⟩ := by
  induction order generalizing atHand collected with
  | nil =>
    obtain rfl := perm.symm.eq_nil
    rw [List.append_nil]
    exact .refl
  | cons outcome rest inductionHypothesis =>
    obtain ⟨before, after, rfl⟩ := List.append_of_mem (perm.mem_iff.mp List.mem_cons_self)
    have later := inductionHypothesis (perm.trans List.perm_middle).cons_inv
      (collected ++ [outcome])
    rw [List.append_assoc] at later
    exact .head (.collect outcome [] [] before after collected) later

/-- Where there is a worker, the results can arrive in every order. -/
theorem run_of_perm {paths : List Path} (some : 0 < workers) {order : List FileOutcome}
    (perm : order.Perm (scanFiles settings disk root paths)) :
    Run settings disk root workers (start paths) ⟨[], [], [], order⟩ := by
  have finished := @run_finish settings disk root workers some paths []
  rw [List.append_nil] at finished
  exact finished.trans (run_collect (perm.trans (List.reverse_perm _).symm) [])

end Pool

theorem workerCount_pos {settings : Settings} (some : 0 < settings.maxWorkers) (files : Nat) :
    0 < workerCount settings files := by
  rw [workerCount]
  omega

/-! ### Audits by several workers -/

/-- However many workers scan a project and in whatever order their results arrive, the results add
up to what an audit finds, with any number of workers in its settings, of the disk without the
files that may not be read. What is found comes file by file, in the order of the paths. -/
theorem pooled_audit_eq (settings : Settings) {disk : Disk} (target : String)
    (sound : disk.isSound = true) (distinct : disk.tree.hasDistinctNames = true) {pool : Pool}
    (run :
      let root := disk.resolve (.ofText target)
      let paths := discover disk root settings.excludedDirectories
      Pool.Run settings disk root (workerCount settings paths.length) (.start paths) pool)
    (done : pool.isDone = true) (count : Nat) :
    let pooled := pool.audit (disk.resolve (.ofText target))
    let single :=
      (Project.audit { settings with maxWorkers := count } disk.withoutUnreadable target).2
    pooled.violations = single.violations ∧ pooled.summary = single.summary ∧
      (∀ file, Analysis.sourceOf? pooled.sources file =
        Analysis.sourceOf? single.sources file) ∧
      pooled.violations =
        (byPath (scansAt settings disk target)).flatMap (·.violations) := by
  intro pooled single
  have arrived : (scansOf pool.collected).Perm (scansAt settings disk target) :=
    (run.collected_perm done).filterMap _
  have cleared := arrived.trans (scansAt_withoutUnreadable settings target sound distinct).symm
  have ordered : ∀ scan ∈ scansOf pool.collected, scan.IsOrdered := fun scan member =>
    isOrdered_of_mem_scansAt (arrived.mem_iff.mp member)
  have apart : HaveDistinctPaths (scansOf pool.collected) :=
    (haveDistinctPaths_scansAt sound distinct).of_perm arrived.symm
  have whole : single = .ofScans (disk.resolve (.ofText target)).text
      (scansAt settings disk.withoutUnreadable target) := by
    rw [← scansAt_withMaxWorkers settings count]
    rfl
  obtain ⟨violations, summary, sources⟩ := Audit.ofScans_of_perm
    (disk.resolve (.ofText target)).text ordered apart cleared
  rw [whole]
  refine ⟨violations, summary, sources, ?_⟩
  rw [← apart.byPath_eq arrived]
  exact Audit.violations_ofScans _ ordered apart

/-- Three files with a call each, the second of which may not be read. -/
def partlyReadable : Disk :=
  let text := Text.encode "fn f(a: Option<u8>) -> u8 \x7b\n    a.unwrap()\n\x7d\n".toList
  { tree := .directory [("a.rs", .file text), ("b.rs", .file text), ("c.rs", .file text)]
    workingDirectory := []
    unreadable := [["b.rs"]]
    unwritable := [] }

/-- Its results arrive from the last one to the first. -/
theorem pooled_audit_eq_partlyReadable :
    let root := partlyReadable.resolve (.ofText ".")
    let paths := discover partlyReadable root Settings.standard.excludedDirectories
    let pool : Pool := ⟨[], [], [], (scanFiles .standard partlyReadable root paths).reverse⟩
    let pooled := pool.audit root
    let single := (Project.audit { Settings.standard with maxWorkers := 1 }
      partlyReadable.withoutUnreadable ".").2
    partlyReadable.isSound = true ∧ partlyReadable.tree.hasDistinctNames = true ∧
      Pool.Run .standard partlyReadable root (workerCount .standard paths.length) (.start paths)
        pool ∧
      pool.isDone = true ∧
      pooled.violations = single.violations ∧ pooled.summary = single.summary ∧
      (∀ file, Analysis.sourceOf? pooled.sources file =
        Analysis.sourceOf? single.sources file) ∧
      pooled.violations =
        (byPath (scansAt .standard partlyReadable ".")).flatMap (·.violations) := by
  intro root paths pool pooled single
  have sound : partlyReadable.isSound = true := by decide
  have distinct : partlyReadable.tree.hasDistinctNames = true := by decide
  have run : Pool.Run .standard partlyReadable root (workerCount .standard paths.length)
      (.start paths) pool :=
    Pool.run_of_perm (workerCount_pos (by decide) paths.length) (List.reverse_perm _)
  exact ⟨sound, distinct, run, rfl, pooled_audit_eq .standard "." sound distinct run rfl 1⟩

end Project

end CrateAudit

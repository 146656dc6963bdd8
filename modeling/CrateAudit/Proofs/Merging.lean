/-
This file says what the scans of several files add up to. Their violations come file by
file in the order of the paths, each file with its own list as it was scanned: two
violations that compare alike lie in one file, and sorting keeps the order that its scan
gave them. So it does not matter in which order the scans arrive.
-/

import CrateAudit.Proofs.Findings
import CrateAudit.Proofs.ReportOrder
import Mathlib.Data.List.Pairwise

namespace CrateAudit

/-- What is merged keeps the order of each file whose violations came in order. -/
theorem Violation.filter_file_merge {groups : List (List Violation)} {file : String}
    (sorted : (groups.flatten.filter (·.file == file)).Pairwise
      fun earlier later => earlier.atMost later = true) :
    (merge groups).filter (·.file == file) = groups.flatten.filter (·.file == file) := by
  rw [filter_merge, List.mergeSort_of_pairwise sorted]

/-! ### Scans of different files -/

/-- A scan whose violations name its file and come in order. -/
structure FileScan.IsOrdered (scan : FileScan) : Prop where
  named : ∀ violation ∈ scan.violations, violation.file = scan.source.path
  sorted : scan.violations.Pairwise fun earlier later => earlier.atMostInFile later = true

theorem Project.pairwise_scanSource (settings : Settings) (source : Source)
    (testPath : Option String) :
    (scanSource settings source testPath).Pairwise
      fun earlier later => earlier.atMostInFile later = true := by
  rw [scanSource]
  split
  · exact Violation.pairwise_sortInFile _
  · exact Violation.pairwise_sortInFile _

theorem Project.isOrdered_scanSource (settings : Settings) (source : Source)
    (testPath : Option String) :
    FileScan.IsOrdered ⟨source, scanSource settings source testPath⟩ where
  named _ := file_of_mem_scanSource
  sorted := pairwise_scanSource settings source testPath

/-- Scans no two of which are of files of one path. -/
def HaveDistinctPaths (scans : List FileScan) : Prop :=
  scans.Pairwise fun first second => first.source.path ≠ second.source.path

/-- Scans in the order of their paths. -/
def byPath (scans : List FileScan) : List FileScan :=
  scans.mergeSort fun first second => first.source.path ≤ second.source.path

theorem byPath_perm (scans : List FileScan) : (byPath scans).Perm scans :=
  List.mergeSort_perm _ _

theorem pairwise_byPath (scans : List FileScan) :
    (byPath scans).Pairwise fun first second => first.source.path ≤ second.source.path :=
  pairwise_mergeSort_name (·.source.path) scans

namespace HaveDistinctPaths

variable {scans scans' : List FileScan}

theorem of_perm (distinct : HaveDistinctPaths scans) (perm : scans.Perm scans') :
    HaveDistinctPaths scans' :=
  (perm.pairwise_iff fun apart => apart.symm).mp distinct

theorem eq_of_path (distinct : HaveDistinctPaths scans) {first second : FileScan}
    (member : first ∈ scans) (member' : second ∈ scans)
    (same : first.source.path = second.source.path) : first = second := by
  have symmetric : Std.Symm fun first second : FileScan =>
      first.source.path ≠ second.source.path := ⟨fun _ _ => Ne.symm⟩
  exact Decidable.byContradiction fun apart =>
    List.Pairwise.forall distinct member member' apart same

/-- The scans of one path are the same in whatever order all scans come. -/
theorem filter_path (distinct : HaveDistinctPaths scans) (perm : scans.Perm scans')
    (file : String) :
    scans.filter (·.source.path == file) = scans'.filter (·.source.path == file) := by
  refine List.Perm.eq_of_pairwise ?_ (distinct.filter _) ((distinct.of_perm perm).filter _)
    (perm.filter _)
  intro first second member member' apart
  rw [List.mem_filter, beq_iff_eq] at member member'
  exact absurd (member.2.trans member'.2.symm) apart

/-- There is one order of the paths. -/
theorem byPath_eq (distinct : HaveDistinctPaths scans) (perm : scans.Perm scans') :
    byPath scans = byPath scans' := by
  have reordered := (byPath_perm scans).trans (perm.trans (byPath_perm scans').symm)
  refine List.Perm.eq_of_pairwise ?_ (pairwise_byPath scans) (pairwise_byPath scans') reordered
  intro first second member member' atMost atMost'
  exact (distinct.of_perm (byPath_perm scans).symm).eq_of_path member
    (reordered.mem_iff.mpr member') (le_antisymm atMost atMost')

end HaveDistinctPaths

namespace Audit

variable {scans scans' : List FileScan}

/-- What is found in a file by several scans is what the scans of the file found. -/
theorem filter_file_flatMap (named : ∀ scan ∈ scans, ∀ violation ∈ scan.violations,
      violation.file = scan.source.path) (file : String) :
    (scans.flatMap (·.violations)).filter (·.file == file) =
      (scans.filter (·.source.path == file)).flatMap (·.violations) := by
  induction scans with
  | nil => rfl
  | cons scan rest inductionHypothesis =>
    rw [List.forall_mem_cons] at named
    rw [List.flatMap_cons, List.filter_append, inductionHypothesis named.2, List.filter_cons]
    split
    · rename_i here
      rw [List.flatMap_cons, List.filter_eq_self.mpr]
      exact fun violation member => by rw [named.1 violation member, here]
    · rename_i elsewhere
      rw [List.filter_eq_nil_iff.mpr, List.nil_append]
      exact fun violation member => by rwa [named.1 violation member]

/-- Scans that found nothing add nothing. -/
theorem flatten_found (scans : List FileScan) :
    ((scans.filter fun scan => !scan.violations.isEmpty).map (·.violations)).flatten =
      scans.flatMap (·.violations) := by
  induction scans with
  | nil => rfl
  | cons scan rest inductionHypothesis =>
    rw [List.filter_cons, List.flatMap_cons, ← inductionHypothesis]
    split
    · rfl
    · rename_i none
      have empty : scan.violations = [] := by simpa using none
      rw [empty, List.nil_append]

/-- What the scans of one path found is in order. -/
theorem pairwise_filter_path (ordered : ∀ scan ∈ scans, scan.IsOrdered)
    (distinct : HaveDistinctPaths scans) (file : String) :
    ((scans.filter (·.source.path == file)).flatMap (·.violations)).Pairwise
      fun earlier later => earlier.atMost later = true := by
  rw [List.pairwise_flatMap]
  constructor
  · intro scan member
    have own := ordered scan (List.mem_filter.mp member).1
    refine own.sorted.imp_of_mem fun {earlier later} inside inside' atMost => ?_
    exact Violation.atMost_iff.mpr
      (Or.inr ⟨(own.named earlier inside).trans (own.named later inside').symm, atMost⟩)
  · refine (distinct.filter _).imp_of_mem fun {first second} member member' apart => ?_
    rw [List.mem_filter, beq_iff_eq] at member member'
    exact absurd (member.2.trans member'.2.symm) apart

/-- The violations of an audit come file by file, in the order of the paths and within a file as
its scan lists them. -/
theorem violations_ofScans (root : String) (ordered : ∀ scan ∈ scans, scan.IsOrdered)
    (distinct : HaveDistinctPaths scans) :
    (ofScans root scans).violations = (byPath scans).flatMap (·.violations) := by
  have ordered' : ∀ scan ∈ byPath scans, scan.IsOrdered := fun scan member =>
    ordered scan ((byPath_perm scans).mem_iff.mp member)
  have merged : (ofScans root scans).violations = Violation.merge _ := rfl
  rw [merged]
  refine eq_of_filter_key Violation.file ?_ ?_ fun file => ?_
  · refine (Violation.pairwise_merge _).imp fun atMost => ?_
    rcases Violation.atMost_iff.mp atMost with above | ⟨same, _⟩
    · exact le_of_lt above
    · exact le_of_eq same
  · rw [List.pairwise_flatMap]
    constructor
    · intro scan member
      refine (ordered' scan member).sorted.imp_of_mem fun {earlier later} inside inside' _ => ?_
      rw [(ordered' scan member).named earlier inside, (ordered' scan member).named later inside']
    · refine (pairwise_byPath scans).imp_of_mem fun {first second} member member' atMost => ?_
      intro earlier inside later inside'
      rw [(ordered' first member).named earlier inside,
        (ordered' second member').named later inside']
      exact atMost
  · have own := filter_file_flatMap (fun scan member => (ordered scan member).named) file
    have sorted := pairwise_filter_path ordered distinct file
    rw [← own, ← flatten_found] at sorted
    rw [Violation.filter_file_merge sorted, flatten_found, own,
      filter_file_flatMap (fun scan member => (ordered' scan member).named) file,
      distinct.filter_path (byPath_perm scans).symm file]

/-- The source that is kept for a file is that of the scan of the file, if it found something. -/
theorem sourceOf?_ofScans (root : String) (file : String) :
    Analysis.sourceOf? (ofScans root scans).sources file =
      (((scans.filter (·.source.path == file)).filter
        fun scan => !scan.violations.isEmpty).map (·.source)).head? := by
  rw [Analysis.sourceOf?, ofScans, ← List.head?_filter, List.filter_map, List.filter_filter,
    List.filter_filter]
  simp only [Function.comp_def, Bool.and_comm]

/-- What scans of different files add up to does not depend on the order in which they arrive. -/
theorem ofScans_of_perm (root : String) (ordered : ∀ scan ∈ scans, scan.IsOrdered)
    (distinct : HaveDistinctPaths scans) (perm : scans.Perm scans') :
    (ofScans root scans).violations = (ofScans root scans').violations ∧
      (ofScans root scans).summary = (ofScans root scans').summary ∧
      ∀ file, Analysis.sourceOf? (ofScans root scans).sources file =
        Analysis.sourceOf? (ofScans root scans').sources file := by
  have ordered' : ∀ scan ∈ scans', scan.IsOrdered := fun scan member =>
    ordered scan (perm.mem_iff.mpr member)
  have violations : (ofScans root scans).violations = (ofScans root scans').violations := by
    rw [violations_ofScans root ordered distinct,
      violations_ofScans root ordered' (distinct.of_perm perm), distinct.byPath_eq perm]
  have summary (scans : List FileScan) : (ofScans root scans).summary =
      .ofViolations (ofScans root scans).violations scans.length := rfl
  refine ⟨violations, ?_, fun file => ?_⟩
  · rw [summary, summary, violations, perm.length_eq]
  · rw [sourceOf?_ofScans, sourceOf?_ofScans, distinct.filter_path perm]

end Audit

end CrateAudit

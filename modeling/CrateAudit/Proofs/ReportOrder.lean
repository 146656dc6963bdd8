/-
This file says that reports are ordered. Any two violations compare, and whatever is
sorted by file, line and kind, or by a name alone, stands in that order. Leaving some of
it out before or after it is sorted comes to the same.
-/

import CrateAudit.Violation
import Mathlib.Data.String.Basic

namespace CrateAudit

/-! ### Sorting -/

section

variable {Item : Type} {atMost : Item → Item → Bool}
  (trans : ∀ first second third, atMost first second = true → atMost second third = true →
    atMost first third = true)
  (total : ∀ first second, (atMost first second || atMost second first) = true)

include trans total

/-- The first of some items comes, when they are sorted, after those that have to be before it and
before the rest. -/
theorem mergeSort_cons_eq (item : Item) (rest : List Item) :
    (item :: rest).mergeSort atMost =
      (rest.mergeSort atMost).filter (fun other => !atMost item other) ++
        item :: (rest.mergeSort atMost).filter (atMost item) := by
  obtain ⟨before, after, whole, others, early⟩ := List.mergeSort_cons trans total item rest
  have sorted := List.pairwise_mergeSort trans total (item :: rest)
  rw [whole, List.pairwise_append, List.pairwise_cons] at sorted
  have late : ∀ other ∈ after, atMost item other = true := sorted.2.1.1
  have before_eq : before.filter (atMost item) = [] :=
    List.filter_eq_nil_iff.mpr fun other member => by simpa using early other member
  have after_eq : after.filter (fun other => !atMost item other) = [] :=
    List.filter_eq_nil_iff.mpr fun other member => by simpa using late other member
  rw [whole, others, List.filter_append, List.filter_append, before_eq, after_eq,
    List.filter_eq_self.mpr early, List.filter_eq_self.mpr late, List.append_nil,
    List.nil_append]

/-- What is kept of a sorted list is what is kept, sorted. -/
theorem filter_mergeSort (kept : Item → Bool) (items : List Item) :
    (items.mergeSort atMost).filter kept = (items.filter kept).mergeSort atMost := by
  induction items with
  | nil => simp
  | cons item rest inductionHypothesis =>
    by_cases keeps : kept item = true
    · rw [List.filter_cons_of_pos keeps, mergeSort_cons_eq trans total,
        mergeSort_cons_eq trans total, ← inductionHypothesis, List.filter_append,
        List.filter_cons_of_pos keeps]
      simp only [List.filter_filter, Bool.and_comm]
    · obtain ⟨before, after, whole, others, _⟩ := List.mergeSort_cons trans total item rest
      rw [List.filter_cons_of_neg keeps, ← inductionHypothesis, whole, others,
        List.filter_append, List.filter_append, List.filter_cons_of_neg keeps]

end

theorem pairwise_mergeSort_name {Item : Type} (name : Item → String) (items : List Item) :
    (items.mergeSort fun first second => name first ≤ name second).Pairwise
      fun first second => name first ≤ name second := by
  refine (List.pairwise_mergeSort ?_ ?_ items).imp of_decide_eq_true
  · intro first second third atMost atMost'
    exact decide_eq_true (le_trans (of_decide_eq_true atMost) (of_decide_eq_true atMost'))
  · intro first second
    rw [Bool.or_eq_true, decide_eq_true_eq, decide_eq_true_eq]
    exact le_total (name first) (name second)

/-- A list in the order of a key is known by what it holds under each key. -/
theorem eq_of_filter_key {Item Key : Type} [LinearOrder Key] [BEq Key] [LawfulBEq Key]
    (key : Item → Key) {first second : List Item}
    (sorted : first.Pairwise fun earlier later => key earlier ≤ key later)
    (sorted' : second.Pairwise fun earlier later => key earlier ≤ key later)
    (same : ∀ own, first.filter (key · == own) = second.filter (key · == own)) :
    first = second := by
  have mem_iff (item : Item) : item ∈ first ↔ item ∈ second := by
    have own := congrArg (item ∈ ·) (same (key item))
    simpa using own
  induction first generalizing second with
  | nil =>
    exact (List.eq_nil_iff_forall_not_mem.mpr fun item member =>
      List.not_mem_nil ((mem_iff item).mpr member)).symm
  | cons item rest inductionHypothesis =>
    cases second with
    | nil => exact absurd ((mem_iff item).mp List.mem_cons_self) List.not_mem_nil
    | cons item' rest' =>
      rw [List.pairwise_cons] at sorted sorted'
      have sameKey : key item = key item' := by
        refine le_antisymm ?_ ?_
        · rcases List.mem_cons.mp ((mem_iff item').mpr List.mem_cons_self) with here | later
          · rw [here]
          · exact sorted.1 _ later
        · rcases List.mem_cons.mp ((mem_iff item).mp List.mem_cons_self) with here | later
          · rw [here]
          · exact sorted'.1 _ later
      have heads := same (key item)
      rw [List.filter_cons, List.filter_cons, if_pos (beq_self_eq_true _),
        if_pos (beq_iff_eq.mpr sameKey.symm)] at heads
      obtain ⟨rfl, _⟩ := List.cons.inj heads
      have tails (own : Key) : rest.filter (key · == own) = rest'.filter (key · == own) := by
        have whole := same own
        rw [List.filter_cons, List.filter_cons] at whole
        split at whole
        · exact (List.cons.inj whole).2
        · exact whole
      refine congrArg _ (inductionHypothesis sorted.2 sorted'.2 tails fun other => ?_)
      have own := congrArg (other ∈ ·) (tails (key other))
      simpa using own

namespace Violation

theorem atMostInFile_iff {first second : Violation} :
    first.atMostInFile second = true ↔ first.line < second.line ∨
      (first.line = second.line ∧ first.kind.ordinal ≤ second.kind.ordinal) := by
  simp only [atMostInFile, Bool.or_eq_true, Bool.and_eq_true, beq_iff_eq, decide_eq_true_eq]

theorem atMost_iff {first second : Violation} :
    first.atMost second = true ↔ first.file < second.file ∨
      (first.file = second.file ∧ first.atMostInFile second = true) := by
  rw [atMostInFile_iff]
  simp only [atMost, Bool.or_eq_true, Bool.and_eq_true, beq_iff_eq, decide_eq_true_eq]

theorem atMostInFile_trans {first second third : Violation}
    (atMost : first.atMostInFile second = true) (atMost' : second.atMostInFile third = true) :
    first.atMostInFile third = true := by
  rw [atMostInFile_iff] at atMost atMost' ⊢
  omega

theorem atMostInFile_total (first second : Violation) :
    (first.atMostInFile second || second.atMostInFile first) = true := by
  rw [Bool.or_eq_true, atMostInFile_iff, atMostInFile_iff]
  omega

theorem atMost_trans {first second third : Violation}
    (atMost : first.atMost second = true) (atMost' : second.atMost third = true) :
    first.atMost third = true := by
  rw [atMost_iff] at atMost atMost' ⊢
  rcases atMost with above | ⟨same, inFile⟩
  · rcases atMost' with above' | ⟨same', _⟩
    · exact Or.inl (lt_trans above above')
    · exact Or.inl (same' ▸ above)
  · rcases atMost' with above' | ⟨same', inFile'⟩
    · exact Or.inl (same ▸ above')
    · exact Or.inr ⟨same.trans same', atMostInFile_trans inFile inFile'⟩

theorem atMost_total (first second : Violation) :
    (first.atMost second || second.atMost first) = true := by
  rw [Bool.or_eq_true, atMost_iff, atMost_iff]
  rcases lt_trichotomy first.file second.file with above | same | below
  · exact Or.inl (Or.inl above)
  · exact (Bool.or_eq_true _ _ ▸ atMostInFile_total first second).imp
      (fun atMost => Or.inr ⟨same, atMost⟩) fun atMost => Or.inr ⟨same.symm, atMost⟩
  · exact Or.inr (Or.inl below)

theorem pairwise_sortInFile (violations : List Violation) :
    (sortInFile violations).Pairwise fun first second => first.atMostInFile second = true := by
  refine List.pairwise_mergeSort ?_ ?_ violations
  · exact fun first second third => atMostInFile_trans
  · exact atMostInFile_total

/-- What is left of the violations of a file in order are the violations that are left, in order. -/
theorem filter_sortInFile (kept : Violation → Bool) (violations : List Violation) :
    (sortInFile violations).filter kept = sortInFile (violations.filter kept) := by
  refine filter_mergeSort ?_ ?_ kept violations
  · exact fun first second third => atMostInFile_trans
  · exact atMostInFile_total

theorem filter_merge (kept : Violation → Bool) (groups : List (List Violation)) :
    (merge groups).filter kept = (groups.flatten.filter kept).mergeSort atMost := by
  refine filter_mergeSort ?_ ?_ kept groups.flatten
  · exact fun first second third => atMost_trans
  · exact atMost_total

theorem pairwise_merge (groups : List (List Violation)) :
    (merge groups).Pairwise fun first second => first.atMost second = true := by
  refine List.pairwise_mergeSort ?_ ?_ groups.flatten
  · exact fun first second third => atMost_trans
  · exact atMost_total

end Violation

end CrateAudit

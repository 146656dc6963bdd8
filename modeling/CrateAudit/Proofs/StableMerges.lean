/-
This file says what sorting the violations of several lists keeps. The order is that of a
key which leaves out the message and the severity, so there are ties, and violations with
one key stay in the order in which the lists bring them. A sorted list is known by its
violations under each key, and from that come the laws of merging: it does not matter
whether lists are merged at once or group by group, nor, for lists about different files,
in which order they come.
-/

import CrateAudit.Proofs.ReportOrder
import Mathlib.Data.Prod.Lex

namespace CrateAudit

/-- The second list is the first one sorted by a key: what has one key stays in its order. -/
structure IsStablySorted {Item Key : Type} [LinearOrder Key] [BEq Key] (key : Item → Key)
    (items sorted : List Item) : Prop where
  perm : sorted.Perm items
  ordered : sorted.Pairwise fun earlier later => key earlier ≤ key later
  stable : ∀ own, sorted.filter (key · == own) = items.filter (key · == own)

/-- There is one way to sort a list by a key and keep the order under each key. -/
theorem IsStablySorted.unique {Item Key : Type} [LinearOrder Key] [BEq Key] [LawfulBEq Key]
    {key : Item → Key} {items items' sorted sorted' : List Item}
    (isSorted : IsStablySorted key items sorted)
    (isSorted' : IsStablySorted key items' sorted')
    (same : ∀ own, items.filter (key · == own) = items'.filter (key · == own)) :
    sorted = sorted' := by
  refine eq_of_filter_key key isSorted.ordered isSorted'.ordered fun own => ?_
  rw [isSorted.stable, isSorted'.stable, same]

namespace Violation

/-- What violations are sorted by: the file, then the line, then the place of the kind. -/
def sortKey (violation : Violation) : String ×ₗ Int ×ₗ Nat :=
  toLex (violation.file, toLex (violation.line, violation.kind.ordinal))

theorem atMost_iff_sortKey {first second : Violation} :
    first.atMost second = true ↔ first.sortKey ≤ second.sortKey := by
  rw [atMost_iff, atMostInFile_iff, sortKey, sortKey, Prod.Lex.toLex_le_toLex,
    Prod.Lex.toLex_le_toLex]

theorem isStablySorted_merge (groups : List (List Violation)) :
    IsStablySorted sortKey groups.flatten (merge groups) where
  perm := List.mergeSort_perm _ _
  ordered := (pairwise_merge groups).imp atMost_iff_sortKey.mp
  stable own := by
    -- violations of one key are in order as they come
    have alike : (groups.flatten.filter (sortKey · == own)).Pairwise
        fun earlier later => earlier.atMost later = true := by
      refine List.pairwise_of_forall_mem_list fun earlier member later member' => ?_
      rw [List.mem_filter, beq_iff_eq] at member member'
      exact atMost_iff_sortKey.mpr (le_of_eq (member.2.trans member'.2.symm))
    rw [filter_merge, List.mergeSort_of_pairwise alike]

/-- Merging the groups first leaves the violations under each key as they are. -/
theorem filter_flatten_map_merge (parts : List (List (List Violation)))
    (own : String ×ₗ Int ×ₗ Nat) :
    (parts.map merge).flatten.filter (sortKey · == own) =
      parts.flatten.flatten.filter (sortKey · == own) := by
  induction parts with
  | nil => rfl
  | cons part rest inductionHypothesis =>
    rw [List.map_cons, List.flatten_cons, List.filter_append, inductionHypothesis,
      (isStablySorted_merge part).stable, List.flatten_cons, List.flatten_append,
      List.filter_append]

/-- Lists no two of which have violations of one file. -/
def ShareNoFile (groups : List (List Violation)) : Prop :=
  groups.Pairwise fun first second =>
    ∀ violation ∈ first, ∀ violation' ∈ second, violation.file ≠ violation'.file

instance (groups : List (List Violation)) : Decidable (ShareNoFile groups) :=
  inferInstanceAs (Decidable (List.Pairwise _ groups))

theorem ShareNoFile.of_perm {groups groups' : List (List Violation)}
    (apart : ShareNoFile groups) (perm : groups.Perm groups') : ShareNoFile groups' :=
  (perm.pairwise_iff fun differ violation member violation' member' =>
    (differ violation' member' violation member).symm).mp apart

/-- Of two lists about different files, one has no violation under a key. -/
theorem filter_eq_nil_or_of_differ {first second : List Violation}
    (differ : ∀ violation ∈ first, ∀ violation' ∈ second, violation.file ≠ violation'.file)
    (own : String ×ₗ Int ×ₗ Nat) :
    first.filter (sortKey · == own) = [] ∨ second.filter (sortKey · == own) = [] := by
  by_contra both
  rw [not_or, List.filter_eq_nil_iff, List.filter_eq_nil_iff] at both
  push Not at both
  obtain ⟨⟨violation, member, key⟩, ⟨violation', member', key'⟩⟩ := both
  have same : violation.sortKey = violation'.sortKey :=
    (beq_iff_eq.mp key).trans (beq_iff_eq.mp key').symm
  exact differ violation member violation' member' (congrArg (fun lex => (ofLex lex).1) same)

/-- The violations under each key come in one order however lists about different files are
ordered. -/
theorem filter_flatten_of_perm {groups groups' : List (List Violation)}
    (perm : groups.Perm groups') (apart : ShareNoFile groups) (own : String ×ₗ Int ×ₗ Nat) :
    groups.flatten.filter (sortKey · == own) = groups'.flatten.filter (sortKey · == own) := by
  induction perm with
  | nil => rfl
  | cons group _ inductionHypothesis =>
    rw [List.flatten_cons, List.flatten_cons, List.filter_append, List.filter_append,
      inductionHypothesis (List.pairwise_cons.mp apart).2]
  | swap first second rest =>
    have differ := (List.pairwise_cons.mp apart).1 first List.mem_cons_self
    simp only [List.flatten_cons, List.filter_append]
    rcases filter_eq_nil_or_of_differ differ own with none | none
    · rw [none, List.nil_append, List.nil_append]
    · rw [none, List.nil_append, List.nil_append]
  | trans perm _ inductionHypothesis inductionHypothesis' =>
    exact (inductionHypothesis apart).trans (inductionHypothesis' (apart.of_perm perm))

/-- Merging sorts stably by file, line and kind. Merging groups of the lists first comes to the
same, so merging twice is merging once; and lists about different files may come in any order. -/
theorem merge_stablySorts (groups : List (List Violation)) :
    IsStablySorted sortKey groups.flatten (merge groups) ∧
      (∀ parts : List (List (List Violation)), parts.flatten = groups →
        merge (parts.map merge) = merge groups) ∧
      merge [merge groups] = merge groups ∧
      (ShareNoFile groups → ∀ groups', groups.Perm groups' → merge groups' = merge groups) := by
  have grouped (parts : List (List (List Violation))) :
      merge (parts.map merge) = merge parts.flatten :=
    (isStablySorted_merge _).unique (isStablySorted_merge _) (filter_flatten_map_merge parts)
  refine ⟨isStablySorted_merge groups, ?_, ?_, ?_⟩
  · rintro parts rfl
    exact grouped parts
  · simpa using grouped [groups]
  · intro apart groups' perm
    exact (isStablySorted_merge _).unique (isStablySorted_merge _) fun own =>
      (filter_flatten_of_perm perm apart own).symm

/-- Two lists about different files; the first has two violations with one key. -/
def tiedLists : List (List Violation) :=
  [[⟨.unwrapInProduction, "src/lib.rs", 3, "Use of .unwrap()", .error⟩,
      ⟨.unwrapInProduction, "src/lib.rs", 3, "Use of .expect()", .error⟩],
    [⟨.lineTooLong, "src/io.rs", 7, "Line is too long", .warning⟩]]

theorem merge_stablySorts_tiedLists :
    ([[tiedLists.head!], tiedLists.tail].flatten = tiedLists ∧
      merge ([[tiedLists.head!], tiedLists.tail].map merge) = merge tiedLists) ∧
    (ShareNoFile tiedLists ∧ tiedLists.Perm tiedLists.reverse ∧
      merge tiedLists.reverse = merge tiedLists) := by
  have grouping : [[tiedLists.head!], tiedLists.tail].flatten = tiedLists := rfl
  have apart : ShareNoFile tiedLists := by decide
  have perm : tiedLists.Perm tiedLists.reverse := (List.reverse_perm tiedLists).symm
  obtain ⟨_, grouped, _, reordered⟩ := merge_stablySorts tiedLists
  exact ⟨⟨grouping, grouped _ grouping⟩, apart, perm, reordered apart _ perm⟩

end Violation

end CrateAudit

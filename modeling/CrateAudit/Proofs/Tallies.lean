/-
This file says that the totals of an audit count every violation once: the kinds that
appear part the violations among them, and so do the files.
-/

import CrateAudit.Summary
import Mathlib.Algebra.GroupWithZero.Nat
import Mathlib.Data.List.Perm.Basic

namespace CrateAudit

/-! ### Items by their keys -/

theorem nodup_eraseDups {Item : Type} [BEq Item] [LawfulBEq Item] (items : List Item) :
    items.eraseDups.Nodup := by
  match items with
  | [] => exact List.nodup_nil
  | item :: rest =>
    rw [List.eraseDups_cons, List.nodup_cons]
    refine ⟨fun member => ?_, nodup_eraseDups _⟩
    rw [List.mem_eraseDups, List.mem_filter] at member
    simp at member
  termination_by items.length
  decreasing_by
    have bound := List.length_filter_le (fun other => !other == item) rest
    simp only [List.length_cons]
    omega

section

variable {Item Key : Type} [BEq Key] [LawfulBEq Key] (key : Item → Key) {keys : List Key}
  {items : List Item}

/-- Different keys that hold for all items part the items among them. -/
theorem perm_flatMap_filter (distinct : keys.Nodup) (known : ∀ item ∈ items, key item ∈ keys) :
    (keys.flatMap fun own => items.filter (key · == own)).Perm items := by
  induction keys generalizing items with
  | nil =>
    have none : items = [] := List.eq_nil_iff_forall_not_mem.mpr fun item member =>
      List.not_mem_nil (known item member)
    rw [none]
    rfl
  | cons own rest inductionHypothesis =>
    rw [List.nodup_cons] at distinct
    have others : rest.flatMap (fun other => items.filter (key · == other)) =
        rest.flatMap fun other => (items.filter (!key · == own)).filter (key · == other) := by
      refine List.flatMap_congr fun other member => ?_
      rw [List.filter_filter]
      refine List.filter_congr fun item _ => ?_
      rw [Bool.eq_self_and, Bool.not_eq_true', beq_iff_eq, beq_eq_false_iff_ne]
      rintro rfl rfl
      exact distinct.1 member
    rw [List.flatMap_cons, others]
    refine .trans (.append_left _ (inductionHypothesis distinct.2 fun item member => ?_))
      (List.filter_append_perm _ items)
    obtain ⟨member, other⟩ := List.mem_filter.mp member
    rcases List.mem_cons.mp (known item member) with same | later
    · simp [same] at other
    · exact later

theorem sum_countP (distinct : keys.Nodup) (known : ∀ item ∈ items, key item ∈ keys) :
    (keys.map fun own => items.countP (key · == own)).sum = items.length := by
  have parts := (perm_flatMap_filter key distinct known).length_eq
  rw [List.length_flatMap] at parts
  simpa only [List.countP_eq_length_filter] using parts

end

namespace Summary

variable {violations : List Violation}

/-! ### Kinds and files that appear -/

theorem nodup_kindsOf (violations : List Violation) : (kindsOf violations).Nodup :=
  nodup_eraseDups _

theorem mem_kindsOf {kind : Kind} :
    kind ∈ kindsOf violations ↔ ∃ violation ∈ violations, violation.kind = kind := by
  rw [kindsOf, List.mem_eraseDups, List.mem_map]

theorem nodup_filesOf (violations : List Violation) : (filesOf violations).Nodup :=
  nodup_eraseDups _

theorem mem_filesOf {file : String} :
    file ∈ filesOf violations ↔ ∃ violation ∈ violations, violation.file = file := by
  rw [filesOf, List.mem_eraseDups, List.mem_map]

/-! ### Counts by kind -/

theorem map_fst_countByKind (violations : List Violation) :
    (countByKind violations).map (·.1) = kindsOf violations := by
  rw [countByKind, List.map_map]
  exact List.map_id _

theorem sum_countByKind (violations : List Violation) :
    ((countByKind violations).map (·.2)).sum = violations.length := by
  rw [countByKind, List.map_map]
  exact sum_countP (·.kind) (nodup_kindsOf violations) fun violation member =>
    mem_kindsOf.mpr ⟨violation, member, rfl⟩

/-- Whether the totals of a summary are those of some violations: each kind that appears is
counted once, with the number of its violations. -/
structure Counts (summary : Summary) (violations : List Violation) : Prop where
  total : summary.total = violations.length
  sum : (summary.counts.map (·.2)).sum = summary.total
  once : (summary.counts.map (·.1)).Nodup
  appear : ∀ kind, kind ∈ summary.counts.map (·.1) ↔
    ∃ violation ∈ violations, violation.kind = kind
  each : ∀ count ∈ summary.counts, count.2 = violations.countP (·.kind == count.1)

theorem counts_ofViolations (violations : List Violation) (files : Int) :
    (ofViolations violations files).Counts violations where
  total := rfl
  sum := sum_countByKind violations
  once := by
    rw [ofViolations, map_fst_countByKind]
    exact nodup_kindsOf violations
  appear kind := by
    rw [ofViolations, map_fst_countByKind]
    exact mem_kindsOf
  each count member := by
    obtain ⟨kind, _, rfl⟩ := List.mem_map.mp member
    rfl

end Summary

end CrateAudit

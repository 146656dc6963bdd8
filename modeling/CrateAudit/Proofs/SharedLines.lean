/-
This file says when violations of different kinds stay out of each other's way in the
plan for a file. Where no line that is edited for one kind has a later violation of
another kind that can be fixed, each violation is planned as if it stood alone. A choice
of kinds then only picks from the plan for all of them.
-/

import CrateAudit.Proofs.Planning

namespace CrateAudit.Fix

/-- What is left alone for a violation by itself. -/
def skipFor? (source : Source) (violation : Violation) : Option Skipped :=
  match plan source.lines violation with
  | .skip reason => some ⟨violation, reason.message⟩
  | .replace _ _ | .remove _ => none

/-- By itself a violation is either edited away or left alone. -/
theorem editFor?_or_skipFor? (source : Source) (violation : Violation) :
    (∃ edit, editFor? source violation = some edit ∧ skipFor? source violation = none ∧
        isEditable source.lines violation = true) ∨
      ∃ reason, editFor? source violation = none ∧
        skipFor? source violation = some ⟨violation, reason.message⟩ ∧
        plan source.lines violation = .skip reason := by
  unfold editFor? skipFor? isEditable
  cases plan source.lines violation with
  | replace replacement description => exact Or.inl ⟨_, rfl, rfl, rfl⟩
  | remove description => exact Or.inl ⟨_, rfl, rfl, rfl⟩
  | skip reason => exact Or.inr ⟨reason, rfl, rfl, rfl⟩

theorem SkipReason.message_ne_lineShared {reason : SkipReason} (other : reason ≠ .lineShared) :
    reason.message ≠ SkipReason.lineShared.message := by
  cases reason with
  | lineShared => exact absurd rfl other
  | noAutomaticFix kind => cases kind <;> decide
  | _ => decide

/-- The plan for one violation does not look at other ones. -/
theorem plan_ne_lineShared (lines : List Line) (violation : Violation) :
    plan lines violation ≠ .skip .lineShared := by
  intro shared
  by_cases inside : ∃ (index : Nat) (line : Line), violation.line = (index : Int) + 1 ∧
      lines[index]? = some line
  · obtain ⟨index, line, place, found⟩ := inside
    rw [plan_of_line place found] at shared
    split at shared
    · split at shared
      · rw [propagateErrors] at shared
        split at shared <;> cases shared
      · cases shared
    · simp only [removeDiscard] at shared
      repeat' split at shared
      all_goals cases shared
    · cases shared
  · simp only [plan] at shared
    split at shared
    · cases shared
    · rename_i positive
      have outside : lines[(violation.line - 1).toNat]? = none :=
        Option.eq_none_iff_forall_ne_some.mpr fun line found =>
          inside ⟨(violation.line - 1).toNat, line, by omega, found⟩
      simp only [outside] at shared
      cases shared

/-- A violation that is left alone by itself names itself, and is not so for another one's sake. -/
theorem of_skipFor? {source : Source} {violation : Violation} {skipped : Skipped}
    (found : skipFor? source violation = some skipped) :
    skipped.violation = violation ∧ skipped.reason ≠ SkipReason.lineShared.message := by
  rcases editFor?_or_skipFor? source violation with ⟨_, _, none, _⟩ | ⟨reason, _, own, planned⟩
  · rw [found] at none
    cases none
  · rw [found, Option.some_inj] at own
    subst own
    refine ⟨rfl, SkipReason.message_ne_lineShared ?_⟩
    rintro rfl
    exact plan_ne_lineShared _ _ planned

/-- What one more violation in front does to the skipped ones. -/
theorem skipped_planFileAfter_cons (source : Source) (seen : List (Int × Kind))
    (edited : List Int) (violation : Violation) (rest : List Violation) :
    (planFileAfter source seen edited (violation :: rest)).skipped =
      if (violation.line, violation.kind) ∈ seen then
        (planFileAfter source seen edited rest).skipped
      else if violation.line ∈ edited then
        ⟨violation, SkipReason.lineShared.message⟩ ::
          (planFileAfter source ((violation.line, violation.kind) :: seen) edited rest).skipped
      else
        match skipFor? source violation with
        | some skipped => skipped ::
          (planFileAfter source ((violation.line, violation.kind) :: seen) edited rest).skipped
        | none => (planFileAfter source ((violation.line, violation.kind) :: seen)
            (violation.line :: edited) rest).skipped := by
  rw [planFileAfter]
  simp only [List.contains_iff_mem]
  by_cases again : (violation.line, violation.kind) ∈ seen
  · rw [if_pos again, if_pos again]
  · rw [if_neg again, if_neg again]
    by_cases used : violation.line ∈ edited
    · rw [if_pos used, if_pos used]
      rfl
    · rw [if_neg used, if_neg used]
      cases planned : plan source.lines violation <;> simp only [skipFor?, planned] <;> rfl

/-- A violation that is left alone is one of those planned. -/
theorem violation_mem_of_mem_skipped {source : Source} {seen : List (Int × Kind)}
    {edited : List Int} {violations : List Violation} {skipped : Skipped}
    (member : skipped ∈ (planFileAfter source seen edited violations).skipped) :
    skipped.violation ∈ violations := by
  induction violations generalizing seen edited with
  | nil => cases member
  | cons violation rest inductionHypothesis =>
    rw [skipped_planFileAfter_cons] at member
    split at member
    · exact List.mem_cons_of_mem _ (inductionHypothesis member)
    · split at member
      · rcases List.mem_cons.mp member with rfl | later
        · exact List.mem_cons_self
        · exact List.mem_cons_of_mem _ (inductionHypothesis later)
      · split at member
        · rename_i own found
          rcases List.mem_cons.mp member with rfl | later
          · rw [(of_skipFor? found).1]
            exact List.mem_cons_self
          · exact List.mem_cons_of_mem _ (inductionHypothesis later)
        · exact List.mem_cons_of_mem _ (inductionHypothesis member)

/-! ### Violations that come first -/

/-- The violations of which no earlier one, and none seen before, has the line and the kind. -/
def firstOfEach (seen : List (Int × Kind)) : List Violation → List Violation
  | [] => []
  | violation :: rest =>
    if (violation.line, violation.kind) ∈ seen then firstOfEach seen rest
    else violation :: firstOfEach ((violation.line, violation.kind) :: seen) rest

/-- The first ones of some kinds are the first ones that have these kinds. -/
theorem filter_firstOfEach (keeps : Kind → Bool) {seen seen' : List (Int × Kind)}
    (same : ∀ line kind, keeps kind = true → ((line, kind) ∈ seen ↔ (line, kind) ∈ seen'))
    (violations : List Violation) :
    (firstOfEach seen violations).filter (fun violation => keeps violation.kind) =
      firstOfEach seen' (violations.filter fun violation => keeps violation.kind) := by
  induction violations generalizing seen seen' with
  | nil => rfl
  | cons violation rest inductionHypothesis =>
    rw [firstOfEach]
    cases kept : keeps violation.kind with
    | false =>
      rw [List.filter_cons_of_neg (by simp [kept])]
      split
      · exact inductionHypothesis same
      · rw [List.filter_cons_of_neg (by simp [kept])]
        refine inductionHypothesis fun line kind keeps' => ?_
        rw [List.mem_cons, or_iff_right, same line kind keeps']
        rintro sameKey
        rw [(Prod.mk.inj sameKey).2, kept] at keeps'
        cases keeps'
    | true =>
      rw [List.filter_cons_of_pos (by exact kept), firstOfEach]
      by_cases again : (violation.line, violation.kind) ∈ seen
      · rw [if_pos again, if_pos ((same _ _ kept).mp again)]
        exact inductionHypothesis same
      · rw [if_neg again, if_neg fun again' => again ((same _ _ kept).mpr again'),
          List.filter_cons_of_pos (by exact kept)]
        refine congrArg _ (inductionHypothesis fun line kind keeps' => ?_)
        rw [List.mem_cons, List.mem_cons, same line kind keeps']

/-! ### Plans in which no line is shared -/

/-- A later violation does not want the line that an earlier one of another kind is edited on. -/
def KeepsOff (lines : List Line) (first second : Violation) : Prop :=
  isEditable lines first = true → first.line = second.line → second.kind ∈ fixableKinds →
    first.kind = second.kind

/-- Where violations keep off each other's lines, all those that can be fixed are planned as if
each stood alone. -/
theorem planFileAfter_of_keepsOff {source : Source} {seen : List (Int × Kind)}
    {edited : List Int} {violations : List Violation}
    (apart : violations.Pairwise (KeepsOff source.lines))
    (settled : ∀ violation ∈ violations, violation.kind ∈ fixableKinds →
      violation.line ∈ edited → (violation.line, violation.kind) ∈ seen) :
    (planFileAfter source seen edited violations).edits =
        (firstOfEach seen violations).filterMap (editFor? source) ∧
      (planFileAfter source seen edited violations).skipped.filter
          (fun skipped => fixableKinds.contains skipped.violation.kind) =
        ((firstOfEach seen violations).filter
          fun violation => fixableKinds.contains violation.kind).filterMap (skipFor? source) := by
  induction violations generalizing seen edited with
  | nil => exact ⟨rfl, rfl⟩
  | cons violation rest inductionHypothesis =>
    rw [List.pairwise_cons] at apart
    have later := fun other member => settled other (List.mem_cons_of_mem _ member)
    have stillSettled : ∀ other ∈ rest, other.kind ∈ fixableKinds → other.line ∈ edited →
        (other.line, other.kind) ∈ (violation.line, violation.kind) :: seen :=
      fun other member fixable used => List.mem_cons_of_mem _ (later other member fixable used)
    rw [edits_planFileAfter_cons, skipped_planFileAfter_cons, firstOfEach]
    by_cases again : (violation.line, violation.kind) ∈ seen
    · rw [if_pos again, if_pos again, if_pos again]
      exact inductionHypothesis apart.2 later
    rw [if_neg again, if_neg again, if_neg again]
    by_cases used : violation.line ∈ edited
    · -- its line was edited for another kind, so it cannot be fixed anyway
      have manual : violation.kind ∉ fixableKinds := fun fixable =>
        again (settled violation List.mem_cons_self fixable used)
      have none : editFor? source violation = none :=
        editFor?_eq_none.mpr (isEditable_of_not_fixable manual)
      obtain ⟨edits, skipped⟩ := inductionHypothesis apart.2 stillSettled
      rw [if_pos used, if_pos used, List.filterMap_cons_none none,
        List.filter_cons_of_neg (by simpa using manual),
        List.filter_cons_of_neg (by simpa using manual)]
      exact ⟨edits, skipped⟩
    rw [if_neg used, if_neg used]
    rcases editFor?_or_skipFor? source violation with
      ⟨edit, made, notSkipped, editable⟩ | ⟨reason, notEdited, left, _⟩
    · -- the later ones that can be fixed and lie on its line are repetitions of it
      have nowSettled : ∀ other ∈ rest, other.kind ∈ fixableKinds →
          other.line ∈ violation.line :: edited →
          (other.line, other.kind) ∈ (violation.line, violation.kind) :: seen := by
        intro other member fixable used
        rcases List.mem_cons.mp used with same | before
        · rw [same, apart.1 other member editable same.symm fixable]
          exact List.mem_cons_self
        · exact stillSettled other member fixable before
      obtain ⟨edits, skipped⟩ := inductionHypothesis apart.2 nowSettled
      rw [made, notSkipped, List.filterMap_cons_some made, List.filter_cons_of_pos
        (by simpa using fixable_of_isEditable editable), List.filterMap_cons_none notSkipped]
      exact ⟨congrArg _ edits, skipped⟩
    · obtain ⟨edits, skipped⟩ := inductionHypothesis apart.2 stillSettled
      rw [notEdited, left, List.filterMap_cons_none notEdited]
      refine ⟨edits, ?_⟩
      simp only [List.filter_cons]
      split
      · rw [List.filterMap_cons_some left, skipped]
      · exact skipped

/-- What violations of some kinds ask for is, of what all of them ask for, that of these kinds. -/
theorem filter_filterMap_kind {Outcome : Type} {outcome? : Violation → Option Outcome}
    (kindOf : Outcome → Kind) (keeps : Kind → Bool)
    (own : ∀ violation outcome, outcome? violation = some outcome →
      kindOf outcome = violation.kind) (violations : List Violation) :
    (violations.filterMap outcome?).filter (fun outcome => keeps (kindOf outcome)) =
      (violations.filter fun violation => keeps violation.kind).filterMap outcome? := by
  rw [List.filter_filterMap, List.filterMap_filter]
  congr
  funext violation
  cases found : outcome? violation with
  | none => simp
  | some outcome =>
    rw [Option.filter_some, own violation outcome found]

theorem planFile_of_keepsOff {source : Source} {violations : List Violation}
    (apart : violations.Pairwise (KeepsOff source.lines)) :
    (planFile source violations).edits =
        (firstOfEach [] violations).filterMap (editFor? source) ∧
      (planFile source violations).skipped.filter
          (fun skipped => fixableKinds.contains skipped.violation.kind) =
        ((firstOfEach [] violations).filter
          fun violation => fixableKinds.contains violation.kind).filterMap (skipFor? source) :=
  planFileAfter_of_keepsOff apart fun _ _ _ used => absurd used List.not_mem_nil

theorem reason_ne_lineShared_of_keepsOff {source : Source} {violations : List Violation}
    (apart : violations.Pairwise (KeepsOff source.lines)) {skipped : Skipped}
    (member : skipped ∈ (planFile source violations).skipped)
    (fixable : skipped.violation.kind ∈ fixableKinds) :
    skipped.reason ≠ SkipReason.lineShared.message := by
  have kept : skipped ∈ (planFile source violations).skipped.filter
      (fun skipped => fixableKinds.contains skipped.violation.kind) :=
    List.mem_filter.mpr ⟨member, List.contains_iff_mem.mpr fixable⟩
  rw [(planFile_of_keepsOff apart).2] at kept
  obtain ⟨violation, _, found⟩ := List.mem_filterMap.mp kept
  exact (of_skipFor? found).2

/-- What is left alone of some kinds that can be fixed is what their violations ask for. -/
theorem filter_skipped_of_keepsOff {source : Source} {violations : List Violation}
    (apart : violations.Pairwise (KeepsOff source.lines)) {keeps : Kind → Bool}
    (fixable : ∀ kind, keeps kind = true → kind ∈ fixableKinds) :
    (planFile source violations).skipped.filter (fun skipped => keeps skipped.violation.kind) =
      ((firstOfEach [] violations).filter fun violation => keeps violation.kind).filterMap
        (skipFor? source) := by
  have narrower {Item : Type} (kindOf : Item → Kind) (items : List Item) :
      items.filter (fun item => keeps (kindOf item)) =
        (items.filter fun item => fixableKinds.contains (kindOf item)).filter
          fun item => keeps (kindOf item) := by
    rw [List.filter_filter]
    refine List.filter_congr fun item _ => ?_
    cases kept : keeps (kindOf item) with
    | false => rfl
    | true => exact (List.contains_iff_mem.mpr (fixable _ kept)).symm
  have own : ∀ violation skipped, skipFor? source violation = some skipped →
      skipped.violation.kind = violation.kind :=
    fun violation skipped found => congrArg Violation.kind (of_skipFor? found).1
  rw [narrower (fun skipped : Skipped => skipped.violation.kind), (planFile_of_keepsOff apart).2,
    filter_filterMap_kind (fun skipped : Skipped => skipped.violation.kind) keeps own,
    ← narrower Violation.kind]

/-- Where violations keep off each other's lines, the plan for those of some kinds that can be
fixed is the part of the plan for all that is about these kinds. -/
theorem planFile_filter {source : Source} {violations : List Violation}
    (apart : violations.Pairwise (KeepsOff source.lines)) {keeps : Kind → Bool}
    (fixable : ∀ kind, keeps kind = true → kind ∈ fixableKinds) :
    planFile source (violations.filter fun violation => keeps violation.kind) =
      ⟨(planFile source violations).edits.filter (fun edit => keeps edit.kind),
        (planFile source violations).skipped.filter
          fun skipped => keeps skipped.violation.kind⟩ := by
  have first : firstOfEach [] (violations.filter fun violation => keeps violation.kind) =
      (firstOfEach [] violations).filter fun violation => keeps violation.kind :=
    (filter_firstOfEach keeps (fun _ _ _ => Iff.rfl) violations).symm
  have apart' := apart.filter fun violation => keeps violation.kind
  have edits : (planFile source
      (violations.filter fun violation => keeps violation.kind)).edits =
      (planFile source violations).edits.filter fun edit => keeps edit.kind := by
    have own : ∀ violation edit, editFor? source violation = some edit →
        edit.kind = violation.kind := fun violation edit found => (editFor?_names found).2.2
    rw [(planFile_of_keepsOff apart').1, (planFile_of_keepsOff apart).1, first,
      filter_filterMap_kind Edit.kind keeps own]
  have skipped : (planFile source
      (violations.filter fun violation => keeps violation.kind)).skipped =
      (planFile source violations).skipped.filter
        fun skipped => keeps skipped.violation.kind := by
    have chosen : ∀ skipped ∈ (planFile source
        (violations.filter fun violation => keeps violation.kind)).skipped,
        keeps skipped.violation.kind = true :=
      fun skipped member => (List.mem_filter.mp (violation_mem_of_mem_skipped member)).2
    rw [← List.filter_eq_self.mpr chosen, filter_skipped_of_keepsOff apart' fixable,
      filter_skipped_of_keepsOff apart fixable, first, List.filter_filter]
    simp only [Bool.and_self]
  rw [← edits, ← skipped]

end CrateAudit.Fix

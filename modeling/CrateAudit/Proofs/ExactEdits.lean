/-
This file says what a plan and its edits come to, from the violations of a file to its new
text. No line is edited twice and every violation has one outcome; the edits, in any order,
replace or drop the lines that they name and join what is left by the line break of the text.
The new text is cut into these lines again, and ends in a line break if the old one did and a
line is left, with one exception: where the old text does not end in a line break and the last
line left is empty, the break before that line ends the new text, and the line is lost.
-/

import CrateAudit.Proofs.RepairedText
import CrateAudit.Proofs.SharedLines
import Mathlib.Data.List.Basic

namespace CrateAudit

namespace Text

/-! ### Texts with one kind of line break -/

/-- The line breaks that a text may keep. -/
def lineBreaks : List (List Char) := [['\n'], ['\r', '\n']]

/-- A text that has no line break but one. -/
def IsBrokenBy (ending content : List Char) : Prop :=
  ∃ pieces : List Line, (∀ piece ∈ pieces, IsPlain piece) ∧ content = ending.intercalate pieces

instance (text : List Char) : Decidable (IsPlain text) :=
  decidable_of_iff (text.all fun character => !endsLine character) (by simp [IsPlain])

variable {ending content : List Char} {pieces : List Line}

theorem lines_append_ending (known : ending ∈ lineBreaks) {text : Line} (plain : IsPlain text)
    (rest : List Char) : lines (text ++ (ending ++ rest)) = text :: lines rest := by
  rcases List.mem_pair.mp known with rfl | rfl
  · exact lines_append_feed plain rest
  · exact lines_append_of_ends plain rfl

/-- A text is cut where its line breaks are, but an empty piece at its end is no line. -/
theorem lines_intercalate (known : ending ∈ lineBreaks) (plain : ∀ piece ∈ pieces, IsPlain piece) :
    lines (ending.intercalate pieces) = withoutOpenEnd false pieces := by
  induction pieces with
  | nil => rfl
  | cons piece rest inductionHypothesis =>
    obtain ⟨here, later⟩ := List.forall_mem_cons.mp plain
    cases rest with
    | nil =>
      cases piece with
      | nil => rfl
      | cons character piece =>
        rw [List.intercalate_singleton, lines_of_no_end here (List.cons_ne_nil _ _)]
        rfl
    | cons next rest =>
      rw [List.intercalate_cons_cons, List.append_assoc, lines_append_ending known here,
        inductionHypothesis later, withoutOpenEnd_cons]

theorem length_withoutOpenEnd_le (closed : Bool) (found : List Line) :
    (withoutOpenEnd closed found).length ≤ found.length := by
  rw [withoutOpenEnd]
  split
  · rw [List.length_dropLast]
    exact Nat.sub_le _ _
  · exact Nat.le_refl _

theorem withoutOpenEnd_eq_self_iff {found : List Line} :
    withoutOpenEnd false found = found ↔ found.getLast? ≠ some [] := by
  rw [withoutOpenEnd, Bool.not_false, Bool.true_and]
  split
  · rename_i lost
    rw [beq_iff_eq] at lost
    obtain ⟨front, rfl⟩ := List.getLast?_eq_some_iff.mp lost
    simp
  · rename_i kept
    rw [beq_iff_eq] at kept
    exact iff_of_true rfl kept

theorem intercalate_concat {front : List Line} (filled : front ≠ []) (last : Line) :
    ending.intercalate (front ++ [last]) = ending.intercalate front ++ (ending ++ last) := by
  induction front with
  | nil => exact absurd rfl filled
  | cons first rest inductionHypothesis =>
    cases rest with
    | nil => simp [List.intercalate_cons_cons]
    | cons next rest =>
      rw [List.cons_append, List.cons_append, List.intercalate_cons_cons, ← List.cons_append,
        inductionHypothesis (List.cons_ne_nil _ _), List.intercalate_cons_cons]
      simp only [List.append_assoc]

theorem mem_intercalate {character : Char} (member : character ∈ ending.intercalate pieces) :
    character ∈ ending ∨ ∃ piece ∈ pieces, character ∈ piece := by
  induction pieces with
  | nil => cases member
  | cons piece rest inductionHypothesis =>
    cases rest with
    | nil => exact Or.inr ⟨piece, List.mem_cons_self, by simpa using member⟩
    | cons next rest =>
      rw [List.intercalate_cons_cons, List.mem_append, List.mem_append] at member
      rcases member with (own | between) | later
      · exact Or.inr ⟨piece, List.mem_cons_self, own⟩
      · exact Or.inl between
      · refine (inductionHypothesis later).imp_right ?_
        rintro ⟨other, inside, own⟩
        exact ⟨other, List.mem_cons_of_mem _ inside, own⟩

theorem getLast?_lineBreak (known : ending ∈ lineBreaks) : ending.getLast? = some '\n' := by
  rcases List.mem_pair.mp known with rfl | rfl <;> rfl

theorem getLast?_of_isSuffix (known : ending ∈ lineBreaks) (ends : ending <:+ content) :
    content.getLast? = some '\n' := by
  obtain ⟨front, rfl⟩ := ends
  rw [List.getLast?_append, getLast?_lineBreak known]
  rfl

/-- If a line feed ends the text, the last piece is empty and is not the only one. -/
theorem openEnd_of_getLast? (plain : ∀ piece ∈ pieces, IsPlain piece)
    (feed : (ending.intercalate pieces).getLast? = some '\n') :
    2 ≤ pieces.length ∧ pieces.getLast? = some [] := by
  rcases List.eq_nil_or_concat' pieces with rfl | ⟨front, last, rfl⟩
  · cases feed
  · have noFeed : last.getLast? ≠ some '\n' := fun found =>
      (plain last (by simp)).not_mem (by decide) (List.mem_of_getLast? found)
    cases front with
    | nil => exact absurd (by simpa using feed) noFeed
    | cons first front =>
      cases last with
      | nil => exact ⟨by simp, by rw [List.getLast?_append]; rfl⟩
      | cons character last =>
        rw [intercalate_concat (List.cons_ne_nil _ _), List.getLast?_append, List.getLast?_append,
          List.getLast?_cons] at feed
        rw [List.getLast?_cons] at noFeed
        exact absurd feed noFeed

/-- A text ends in its line break exactly if its last piece is empty and is not the only one. -/
theorem isSuffix_intercalate (known : ending ∈ lineBreaks)
    (plain : ∀ piece ∈ pieces, IsPlain piece) :
    ending <:+ ending.intercalate pieces ↔ 2 ≤ pieces.length ∧ pieces.getLast? = some [] := by
  constructor
  · exact fun ends => openEnd_of_getLast? plain (getLast?_of_isSuffix known ends)
  · rintro ⟨several, last⟩
    obtain ⟨front, rfl⟩ := List.getLast?_eq_some_iff.mp last
    have filled : front ≠ [] := by
      rintro rfl
      exact absurd several (by decide)
    rw [intercalate_concat filled, List.append_nil]
    exact List.suffix_append _ _

theorem getLast?_eq_feed_iff (known : ending ∈ lineBreaks) (only : IsBrokenBy ending content) :
    content.getLast? = some '\n' ↔ ending <:+ content := by
  obtain ⟨pieces, plain, rfl⟩ := only
  exact ⟨fun feed => (isSuffix_intercalate known plain).mpr (openEnd_of_getLast? plain feed),
    getLast?_of_isSuffix known⟩

/-- The line break of a text with more than one piece is the one between them. -/
theorem lineBreak_intercalate (known : ending ∈ lineBreaks)
    (plain : ∀ piece ∈ pieces, IsPlain piece) (several : 2 ≤ pieces.length) :
    Fix.lineBreak (ending.intercalate pieces) = ending := by
  rcases List.mem_pair.mp known with rfl | rfl
  · rw [Fix.lineBreak, if_neg]
    intro pair
    rcases mem_intercalate (mem_of_includes pair List.mem_cons_self) with own | ⟨piece, member, own⟩
    · exact absurd own (by decide)
    · exact (plain piece member).not_mem (by decide) own
  · obtain ⟨first, rest, rfl⟩ := List.exists_cons_of_length_pos (Nat.zero_lt_of_lt several)
    obtain ⟨second, rest, rfl⟩ := List.exists_cons_of_length_pos (Nat.le_of_succ_le_succ several)
    rw [Fix.lineBreak, if_pos]
    rw [includes_iff_isInfix, List.intercalate_cons_cons]
    exact ⟨first, _, rfl⟩

end Text

namespace Fix

open Text (lineBreaks IsBrokenBy)

/-! ### The outcomes of a plan -/

/-- The lines and kinds of which a plan has an outcome: an edit, or a reason to leave them alone. -/
def FilePlan.outcomes (plan : FilePlan) : List (Int × Kind) :=
  plan.edits.map (fun edit => (edit.line, edit.kind)) ++
    plan.skipped.map fun skipped => (skipped.violation.line, skipped.violation.kind)

/-- A plan edits no line twice, edits lines as they stand in the file, and has one outcome for each
line and kind of a violation. -/
structure PlansExactly (source : Source) (violations : List Violation) (plan : FilePlan) :
    Prop where
  distinct : (plan.edits.map (·.line)).Nodup
  stands : ∀ edit ∈ plan.edits, 1 ≤ edit.line ∧
    source.lines[(edit.line - 1).toNat]? = some edit.before
  once : plan.outcomes.Nodup
  settled : ∀ line kind, (line, kind) ∈ plan.outcomes ↔
    ∃ violation ∈ violations, violation.line = line ∧ violation.kind = kind

/-- An edit carries the line that it is made on. -/
theorem before_of_editFor? {source : Source} {violation : Violation} {edit : Edit}
    (found : editFor? source violation = some edit) :
    edit.before = (source.lines[(violation.line - 1).toNat]?).getD [] := by
  unfold editFor? at found
  cases shape : plan source.lines violation <;> rw [shape] at found <;> cases found <;> rfl

/-- The outcomes are those of the violations that come first of their line and kind. -/
theorem outcomes_planFileAfter (source : Source) (seen : List (Int × Kind)) (edited : List Int)
    (violations : List Violation) :
    (planFileAfter source seen edited violations).outcomes.Perm
      ((firstOfEach seen violations).map fun violation => (violation.line, violation.kind)) := by
  induction violations generalizing seen edited with
  | nil => exact List.Perm.refl []
  | cons violation rest inductionHypothesis =>
    rw [FilePlan.outcomes, edits_planFileAfter_cons, skipped_planFileAfter_cons, firstOfEach]
    by_cases again : (violation.line, violation.kind) ∈ seen
    · rw [if_pos again, if_pos again, if_pos again]
      exact inductionHypothesis seen edited
    rw [if_neg again, if_neg again, if_neg again, List.map_cons]
    by_cases used : violation.line ∈ edited
    · rw [if_pos used, if_pos used, List.map_cons]
      exact List.perm_middle.trans ((inductionHypothesis _ edited).cons _)
    rw [if_neg used, if_neg used]
    rcases editFor?_or_skipFor? source violation with
      ⟨edit, made, notSkipped, _⟩ | ⟨reason, notEdited, left, _⟩
    · obtain ⟨_, line, kind⟩ := editFor?_names made
      rw [made, notSkipped, List.map_cons, line, kind]
      exact (inductionHypothesis _ _).cons _
    · rw [notEdited, left, List.map_cons]
      exact List.perm_middle.trans ((inductionHypothesis _ edited).cons _)

theorem mem_firstOfEach {seen : List (Int × Kind)} {violations : List Violation} {line : Int}
    {kind : Kind} :
    (line, kind) ∈ (firstOfEach seen violations).map
        (fun violation => (violation.line, violation.kind)) ↔
      (line, kind) ∉ seen ∧
        ∃ violation ∈ violations, violation.line = line ∧ violation.kind = kind := by
  induction violations generalizing seen with
  | nil => simp [firstOfEach]
  | cons violation rest inductionHypothesis =>
    rw [firstOfEach, List.exists_mem_cons_iff]
    by_cases own : violation.line = line ∧ violation.kind = kind
    · obtain ⟨rfl, rfl⟩ := own
      by_cases again : (violation.line, violation.kind) ∈ seen
      · rw [if_pos again, inductionHypothesis]
        simp [again]
      · simp [again]
    · have apart : (line, kind) ≠ (violation.line, violation.kind) := fun same =>
        own ⟨(Prod.mk.inj same).1.symm, (Prod.mk.inj same).2.symm⟩
      rw [or_iff_right own]
      split
      · exact inductionHypothesis
      · rw [List.map_cons, List.mem_cons, or_iff_right apart, inductionHypothesis, List.mem_cons,
          or_iff_right apart]

theorem nodup_firstOfEach (seen : List (Int × Kind)) (violations : List Violation) :
    ((firstOfEach seen violations).map
      fun violation => (violation.line, violation.kind)).Nodup := by
  induction violations generalizing seen with
  | nil => exact List.nodup_nil
  | cons violation rest inductionHypothesis =>
    rw [firstOfEach]
    split
    · exact inductionHypothesis seen
    · rw [List.map_cons, List.nodup_cons, mem_firstOfEach]
      exact ⟨fun later => later.1 List.mem_cons_self, inductionHypothesis _⟩

theorem plansExactly_planFile (source : Source) (violations : List Violation) :
    PlansExactly source violations (planFile source violations) := by
  have outcomes := outcomes_planFileAfter source [] [] violations
  refine ⟨nodup_lines_planFile source violations, ?_, ?_, ?_⟩
  · intro edit member
    obtain ⟨violation, _, found, _, line, _, editable⟩ := exists_violation_of_mem_edits member
    obtain ⟨index, text, place, there⟩ := line_of_isEditable editable
    have number : (violation.line - 1).toNat = index := by omega
    refine ⟨(line_inside_planFile member).1, ?_⟩
    rw [before_of_editFor? found, line, number, there, Option.getD_some]
  · exact outcomes.nodup_iff.mpr (nodup_firstOfEach [] violations)
  · intro line kind
    rw [planFile, outcomes.mem_iff, mem_firstOfEach]
    exact and_iff_right List.not_mem_nil

/-! ### The text that is left -/

/-- What is left of the lines of a file: a line that an edit names is replaced or dropped. -/
def linesLeft (edits : List Edit) (lines : List Line) : List Line :=
  (lines.zipIdx 1).flatMap fun place =>
    match editOf? edits place.2 with
    | none => [place.1]
    | some edit => edit.replacement.toList

theorem editedFrom_eq_flatMap (edits : List Edit) (number : Nat) (lines : List Line) :
    editedFrom (fun _ text => text) edits number lines =
      (lines.zipIdx number).flatMap fun place =>
        match editOf? edits place.2 with
        | none => [place.1]
        | some edit => edit.replacement.toList := by
  induction lines generalizing number with
  | nil => rfl
  | cons line rest inductionHypothesis =>
    have later := inductionHypothesis (number + 1)
    rw [Int.natCast_add, Int.natCast_one] at later
    rw [List.zipIdx_cons, List.flatMap_cons, editedFrom]
    cases editOf? edits number with
    | none => exact congrArg (line :: ·) later
    | some edit =>
      simp only
      cases edit.replacement with
      | none => exact later
      | some text => exact congrArg (text :: ·) later

theorem editedLines_eq_linesLeft (edits : List Edit) (lines : List Line) :
    editedLines edits lines = linesLeft edits lines :=
  editedFrom_eq_flatMap edits 1 lines

theorem length_linesLeft_le (edits : List Edit) (lines : List Line) :
    (linesLeft edits lines).length ≤ lines.length := by
  suffices ∀ number, (editedFrom (fun _ text => text) edits number lines).length ≤ lines.length by
    rw [← editedLines_eq_linesLeft]
    exact this 1
  induction lines with
  | nil => exact fun number => Nat.le_refl 0
  | cons line rest inductionHypothesis =>
    intro number
    have later := inductionHypothesis (number + 1)
    rw [editedFrom]
    split
    · exact Nat.succ_le_succ later
    · split
      · exact Nat.le_succ_of_le later
      · exact Nat.succ_le_succ later

theorem linesLeft_perm {edits edits' : List Edit} (distinct : (edits.map (·.line)).Nodup)
    (same : edits'.Perm edits) (lines : List Line) :
    linesLeft edits' lines = linesLeft edits lines := by
  rw [← editedLines_eq_linesLeft, ← editedLines_eq_linesLeft]
  exact editedFrom_congr fun number _ _ => editOf?_perm distinct same number

/-- A text is made of lines: they are joined by a line break, with one more at the end if another
text ended in one and a line is left. The text ends in a line break, and is cut into these lines
again, as this says, but for an empty line at its end. -/
structure IsMadeOf (ending content : List Char) (left : List Line) (text : List Char) : Prop where
  joined : text =
    ending.intercalate left ++ if ending <:+ content ∧ left ≠ [] then ending else []
  ends : ending <:+ text ↔
    left ≠ [] ∧ (ending <:+ content ∨ 2 ≤ left.length ∧ left.getLast? = some [])
  cut : Text.lines text = left ↔ ending <:+ content ∨ left.getLast? ≠ some []

/-- Lines are joined by the break of the text that they come from; where this text has none, there
is at most one. -/
theorem joinLines_of_isBrokenBy {ending content : List Char} (known : ending ∈ lineBreaks)
    (only : IsBrokenBy ending content) {left : List Line}
    (fewer : left.length ≤ (Text.lines content).length) :
    joinLines content left =
      ending.intercalate left ++ if ending <:+ content ∧ left ≠ [] then ending else [] := by
  have closed := Text.getLast?_eq_feed_iff known only
  have whole : joinLines content left = (lineBreak content).intercalate left ++
      if ending <:+ content ∧ left ≠ [] then lineBreak content else [] := by
    cases left <;> by_cases ends : ending <:+ content <;> simp [joinLines, closed, ends]
  obtain ⟨pieces, plain, rfl⟩ := only
  by_cases several : 2 ≤ pieces.length
  · rw [whole, Text.lineBreak_intercalate known plain several]
  · have noEnd : ¬ending <:+ ending.intercalate pieces := fun ends =>
      several ((Text.isSuffix_intercalate known plain).mp ends).1
    have single : left.length ≤ 1 := by
      rw [Text.lines_intercalate known plain] at fewer
      have atMost := Text.length_withoutOpenEnd_le false pieces
      omega
    rw [whole, if_neg fun ends => noEnd ends.1, if_neg fun ends => noEnd ends.1]
    cases left with
    | nil => rfl
    | cons line rest =>
      have alone : rest = [] := List.length_eq_zero_iff.mp (Nat.le_zero.mp
        (Nat.le_of_succ_le_succ single))
      rw [alone, List.intercalate_singleton, List.intercalate_singleton]

/-- Joined lines are cut where they were joined, but for an empty one at the end. -/
theorem isMadeOf_joined {ending content : List Char} (known : ending ∈ lineBreaks)
    {left : List Line} (plain : ∀ line ∈ left, Text.IsPlain line) :
    IsMadeOf ending content left
      (ending.intercalate left ++ if ending <:+ content ∧ left ≠ [] then ending else []) := by
  by_cases none : left = []
  · have filled : ending ≠ [] := by
      rintro rfl
      exact absurd known (by decide)
    subst none
    exact ⟨rfl, by simp [filled], by simp [Text.lines]⟩
  by_cases closed : ending <:+ content
  · -- the last break is one before an empty piece
    have plain' : ∀ line ∈ left ++ [[]], Text.IsPlain line := by
      intro line member
      rcases List.mem_append.mp member with own | added
      · exact plain line own
      · rw [List.mem_singleton.mp added]
        exact Text.isPlain_nil
    have shape : (ending.intercalate left ++
        if ending <:+ content ∧ left ≠ [] then ending else []) =
          ending.intercalate (left ++ [[]]) := by
      rw [if_pos ⟨closed, none⟩, Text.intercalate_concat none, List.append_nil]
    refine ⟨rfl, ?_, ?_⟩
    · rw [shape, Text.isSuffix_intercalate known plain']
      have positive : 1 ≤ left.length := List.length_pos_iff.mpr none
      simpa [none, closed] using positive
    · rw [shape, Text.lines_intercalate known plain']
      simp [Text.withoutOpenEnd, closed]
  · have shape : (ending.intercalate left ++
        if ending <:+ content ∧ left ≠ [] then ending else []) = ending.intercalate left := by
      rw [if_neg fun ends => closed ends.1, List.append_nil]
    refine ⟨rfl, ?_, ?_⟩
    · rw [shape, Text.isSuffix_intercalate known plain]
      simp [none, closed]
    · rw [shape, Text.lines_intercalate known plain, Text.withoutOpenEnd_eq_self_iff]
      simp [closed]

/-- The plan for a text with one kind of line break, and the text that its edits leave in whatever
order they are given. -/
theorem planned_edits_are_exact {ending content : List Char} (known : ending ∈ lineBreaks)
    (only : IsBrokenBy ending content) (path : String) (violations : List Violation) :
    PlansExactly (.ofText path content) violations (planFile (.ofText path content) violations) ∧
      ∀ edits, edits.Perm (planFile (.ofText path content) violations).edits →
        ∃ text, applyEdits? (.ofText path content) edits = some text ∧
          IsMadeOf ending content
            (linesLeft (planFile (.ofText path content) violations).edits (Text.lines content))
            text := by
  have distinct := nodup_lines_planFile (.ofText path content) violations
  refine ⟨plansExactly_planFile _ violations, fun edits same => ⟨_, applyEdits?_eq
    ((same.map _).nodup_iff.mpr distinct) fun edit member =>
      line_inside_planFile (same.mem_iff.mp member), ?_⟩⟩
  rw [editedLines_eq_linesLeft, linesLeft_perm distinct same]
  have plain : ∀ line ∈ linesLeft (planFile (.ofText path content) violations).edits
      (Text.lines content), Text.IsPlain line := by
    intro line member
    rw [← editedLines_eq_linesLeft] at member
    exact Project.isPlain_of_mem_editedLines member
  have joined := joinLines_of_isBrokenBy known only (length_linesLeft_le
    (planFile (.ofText path content) violations).edits (Text.lines content))
  rw [Source.lines_ofText, show (Source.ofText path content).content = content from rfl, joined]
  exact isMadeOf_joined known plain

/-- A discarded value on a line. -/
def discardAt (line : Int) : Violation :=
  { kind := .underscoreBandaid
    file := "src/lib.rs"
    line
    message := Rule.underscoreBinding.message
    severity := Rule.underscoreBinding.severity }

/-- A text with two discarded values, with the line breaks of another system. -/
def windowsSource : Source :=
  .ofText "src/lib.rs" "fn f() \x7b\r\n    let _ = x;\r\n    let _ = y;\r\n\x7d\r\n".toList

/-- Violations out of order, one of them twice, one on no line and one that cannot be fixed. -/
def windowsViolations : List Violation :=
  [discardAt 3, discardAt 2, discardAt 3, discardAt 9, { discardAt 1 with kind := .missingDocs }]

theorem planned_edits_are_exact_windowsSource :
    ['\r', '\n'] ∈ lineBreaks ∧ IsBrokenBy ['\r', '\n'] windowsSource.content ∧
      PlansExactly windowsSource windowsViolations (planFile windowsSource windowsViolations) ∧
      ((planFile windowsSource windowsViolations).edits.map (·.line) = [3, 2] ∧
        (planFile windowsSource windowsViolations).skipped.map (·.violation.line) = [9, 1]) ∧
      ∃ text, applyEdits? windowsSource (planFile windowsSource windowsViolations).edits.reverse =
          some text ∧
        IsMadeOf ['\r', '\n'] windowsSource.content ["fn f() \x7b".toList, "\x7d".toList] text := by
  have known : ['\r', '\n'] ∈ lineBreaks := by decide
  have only : IsBrokenBy ['\r', '\n'] windowsSource.content :=
    ⟨["fn f() \x7b".toList, "    let _ = x;".toList, "    let _ = y;".toList, "\x7d".toList, []],
      List.forall_iff_forall_mem.mp (by decide), by decide⟩
  have left : linesLeft (planFile windowsSource windowsViolations).edits windowsSource.lines =
      ["fn f() \x7b".toList, "\x7d".toList] := by decide +kernel
  obtain ⟨plans, leaves⟩ := planned_edits_are_exact known only "src/lib.rs" windowsViolations
  obtain ⟨text, made, isMade⟩ := leaves _ (List.reverse_perm _)
  exact ⟨known, only, plans, by decide +kernel, text, made, left ▸ isMade⟩

/-- A text that does not end in its line break, but has an empty line before its last one. -/
def openSource : Source := .ofText "src/lib.rs" "fn f() \x7b\x7d\n\nlet _ = x;".toList

/-- Without its last line the text ends in the line break before an empty line, though it did not
end in one before. -/
theorem not_endsAsBefore_openSource :
    IsBrokenBy ['\n'] openSource.content ∧
      ∃ text, applyEdits? openSource (planFile openSource [discardAt 3]).edits = some text ∧
        ¬(['\n'] <:+ text ↔ ['\n'] <:+ openSource.content ∧
          linesLeft (planFile openSource [discardAt 3]).edits openSource.lines ≠ []) := by
  have only : IsBrokenBy ['\n'] openSource.content :=
    ⟨["fn f() \x7b\x7d".toList, [], "let _ = x;".toList],
      List.forall_iff_forall_mem.mp (by decide), by decide⟩
  refine ⟨only, "fn f() \x7b\x7d\n".toList, ?_, by decide⟩
  rw [applyEdits?_planFile]
  decide +kernel

end Fix

end CrateAudit

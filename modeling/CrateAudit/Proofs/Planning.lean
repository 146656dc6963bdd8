/-
This file says which edits the violations of a file lead to. The first violation of a
line that can be edited decides the edit of that line, and no line is edited twice. A
plan never looks at what a violation says, only at its line and its kind, so a
violation met again adds nothing.
-/

import CrateAudit.Proofs.Edits

namespace CrateAudit.Fix

/-! ### The plan for one violation -/

/-- The edit that a violation asks for by itself. -/
def editFor? (source : Source) (violation : Violation) : Option Edit :=
  let edit (replacement : Option Line) (description : String) : Edit :=
    { file := source.path
      line := violation.line
      kind := violation.kind
      before := (source.lines[(violation.line - 1).toNat]?).getD []
      replacement
      description }
  match plan source.lines violation with
  | .skip _ => none
  | .replace replacement description => some (edit (some replacement) description)
  | .remove description => some (edit none description)

/-- Whether a violation can be edited away. -/
def isEditable (lines : List Line) (violation : Violation) : Bool :=
  (plan lines violation).isApplicable

theorem isSome_editFor? (source : Source) (violation : Violation) :
    (editFor? source violation).isSome = isEditable source.lines violation := by
  unfold editFor? isEditable
  cases plan source.lines violation <;> rfl

theorem editFor?_eq_none {source : Source} {violation : Violation} :
    editFor? source violation = none ↔ isEditable source.lines violation = false := by
  rw [← isSome_editFor?, Option.isSome_eq_false_iff, Option.isNone_iff_eq_none]

/-- An edit names the file, the line and the kind of its violation. -/
theorem editFor?_names {source : Source} {violation : Violation} {edit : Edit}
    (found : editFor? source violation = some edit) :
    edit.file = source.path ∧ edit.line = violation.line ∧ edit.kind = violation.kind := by
  unfold editFor? at found
  cases shape : plan source.lines violation <;> rw [shape] at found <;> cases found <;>
    exact ⟨rfl, rfl, rfl⟩

/-- The new text of an edit is the one that was planned. -/
theorem plan_of_replacement {source : Source} {violation : Violation} {edit : Edit} {text : Line}
    (found : editFor? source violation = some edit) (replaced : edit.replacement = some text) :
    plan source.lines violation = .replace text edit.description := by
  unfold editFor? at found
  cases shape : plan source.lines violation <;> rw [shape] at found <;> cases found <;>
    cases replaced
  rfl

/-- A plan depends on the line and the kind of a violation alone. -/
theorem plan_congr {lines : List Line} {first second : Violation}
    (sameLine : first.line = second.line) (sameKind : first.kind = second.kind) :
    plan lines first = plan lines second := by
  rw [plan, plan, sameLine, sameKind]

theorem isEditable_congr {lines : List Line} {first second : Violation}
    (sameLine : first.line = second.line) (sameKind : first.kind = second.kind) :
    isEditable lines first = isEditable lines second := by
  rw [isEditable, isEditable, plan_congr sameLine sameKind]

/-- Only lines of the file are edited. -/
theorem line_of_isEditable {lines : List Line} {violation : Violation}
    (editable : isEditable lines violation = true) :
    ∃ (index : Nat) (line : Line), violation.line = (index : Int) + 1 ∧
      lines[index]? = some line := by
  unfold isEditable plan at editable
  split at editable
  · cases editable
  · rename_i positive
    cases found : lines[(violation.line - 1).toNat]? with
    | none =>
      simp only [found] at editable
      cases editable
    | some line => exact ⟨(violation.line - 1).toNat, line, by omega, found⟩

/-- What is planned for a line of the file, by the kind of its violation. -/
theorem plan_of_line {lines : List Line} {violation : Violation} {index : Nat} {line : Line}
    (place : violation.line = (index : Int) + 1) (found : lines[index]? = some line) :
    plan lines violation =
      match violation.kind with
      | .unwrapInProduction =>
        if (enclosingFunction? lines index).any (·.canPropagate) then propagateErrors line
        else .skip .noPropagation
      | .underscoreBandaid => removeDiscard line
      | kind => .skip (.noAutomaticFix kind) := by
  have positive : ¬ violation.line < 1 := by omega
  have same : (violation.line - 1).toNat = index := by omega
  cases kind : violation.kind <;> simp only [plan, kind, if_neg positive, same, found]

/-- What cannot be fixed by kind is not edited. -/
theorem kind_of_isEditable {lines : List Line} {violation : Violation}
    (editable : isEditable lines violation = true) :
    violation.kind = .unwrapInProduction ∨ violation.kind = .underscoreBandaid := by
  obtain ⟨index, line, place, found⟩ := line_of_isEditable editable
  rw [isEditable, plan_of_line place found] at editable
  cases kind : violation.kind <;> rw [kind] at editable <;> first
    | exact Or.inl rfl
    | exact Or.inr rfl
    | cases editable

theorem fixable_of_isEditable {lines : List Line} {violation : Violation}
    (editable : isEditable lines violation = true) : violation.kind ∈ fixableKinds := by
  rcases kind_of_isEditable editable with kind | kind <;> rw [kind] <;> decide

theorem isEditable_of_not_fixable {lines : List Line} {violation : Violation}
    (manual : violation.kind ∉ fixableKinds) : isEditable lines violation = false :=
  Bool.eq_false_iff.mpr fun editable => manual (fixable_of_isEditable editable)

/-- Nothing is edited outside the file. -/
theorem isEditable_of_no_line {lines : List Line} {violation : Violation}
    (outside : ∀ (index : Nat) (line : Line), violation.line = (index : Int) + 1 →
      lines[index]? ≠ some line) : isEditable lines violation = false := by
  refine Bool.eq_false_iff.mpr fun editable => ?_
  obtain ⟨index, line, place, found⟩ := line_of_isEditable editable
  exact outside index line place found

/-! ### The plan for a file -/

/-- The first violation of a line that can be edited away. -/
def decidingViolation? (lines : List Line) (violations : List Violation) (number : Int) :
    Option Violation :=
  violations.find? fun violation => violation.line == number && isEditable lines violation

theorem decidingViolation?_eq_some {lines : List Line} {violations : List Violation}
    {number : Int} {violation : Violation}
    (found : decidingViolation? lines violations number = some violation) :
    violation ∈ violations ∧ violation.line = number ∧ isEditable lines violation = true := by
  have holds := List.find?_some found
  rw [Bool.and_eq_true, beq_iff_eq] at holds
  exact ⟨List.mem_of_find?_eq_some found, holds⟩

/-- One more violation in front decides its line if it can be edited away. -/
theorem decidingViolation?_cons (lines : List Line) (violation : Violation)
    (rest : List Violation) (number : Int) :
    decidingViolation? lines (violation :: rest) number =
      if violation.line = number ∧ isEditable lines violation = true then some violation
      else decidingViolation? lines rest number := by
  rw [decidingViolation?, List.find?_cons]
  split
  · rename_i holds
    rw [Bool.and_eq_true, beq_iff_eq] at holds
    rw [if_pos holds]
  · rename_i fails
    rw [← Bool.not_eq_true, Bool.and_eq_true, beq_iff_eq] at fails
    rw [if_neg fails]
    rfl

/-- What one more violation in front does to the edits. -/
theorem edits_planFileAfter_cons (source : Source) (seen : List (Int × Kind))
    (edited : List Int) (violation : Violation) (rest : List Violation) :
    (planFileAfter source seen edited (violation :: rest)).edits =
      if (violation.line, violation.kind) ∈ seen then
        (planFileAfter source seen edited rest).edits
      else if violation.line ∈ edited then
        (planFileAfter source ((violation.line, violation.kind) :: seen) edited rest).edits
      else
        match editFor? source violation with
        | none =>
          (planFileAfter source ((violation.line, violation.kind) :: seen) edited rest).edits
        | some edit =>
          edit :: (planFileAfter source ((violation.line, violation.kind) :: seen)
            (violation.line :: edited) rest).edits := by
  rw [planFileAfter]
  simp only [List.contains_iff_mem]
  by_cases again : (violation.line, violation.kind) ∈ seen
  · rw [if_pos again, if_pos again]
  · rw [if_neg again, if_neg again]
    by_cases used : violation.line ∈ edited
    · rw [if_pos used, if_pos used]
      rfl
    · rw [if_neg used, if_neg used]
      cases planned : plan source.lines violation <;> simp only [editFor?, planned] <;> rfl

/-- Every violation that was seen and can be edited away has taken its line. -/
def Taken (lines : List Line) (seen : List (Int × Kind)) (edited : List Int) : Prop :=
  ∀ violation : Violation, (violation.line, violation.kind) ∈ seen →
    isEditable lines violation = true → violation.line ∈ edited

theorem Taken.cons {lines : List Line} {seen : List (Int × Kind)} {edited edited' : List Int}
    {violation : Violation} (taken : Taken lines seen edited)
    (kept : ∀ number ∈ edited, number ∈ edited')
    (own : isEditable lines violation = true → violation.line ∈ edited') :
    Taken lines ((violation.line, violation.kind) :: seen) edited' := by
  intro other member editable
  rcases List.mem_cons.mp member with same | before
  · obtain ⟨sameLine, sameKind⟩ := Prod.mk.inj same
    rw [sameLine]
    exact own (isEditable_congr sameLine sameKind ▸ editable)
  · exact kept _ (taken other before editable)

/-- A violation whose line is taken decides nothing about the other lines. -/
theorem decidingViolation?_cons_of_taken {lines : List Line} {violation : Violation}
    {rest : List Violation} {edited : List Int}
    (own : isEditable lines violation = true → violation.line ∈ edited) {number : Int}
    (free : number ∉ edited) :
    decidingViolation? lines (violation :: rest) number =
      decidingViolation? lines rest number := by
  rw [decidingViolation?_cons, if_neg]
  rintro ⟨sameLine, editable⟩
  exact free (sameLine ▸ own editable)

/-- The edits of a file that is being planned. -/
theorem mem_edits_planFileAfter {source : Source} {seen : List (Int × Kind)} {edited : List Int}
    {violations : List Violation} (taken : Taken source.lines seen edited) {edit : Edit} :
    edit ∈ (planFileAfter source seen edited violations).edits ↔
      edit.line ∉ edited ∧
        (decidingViolation? source.lines violations edit.line).bind (editFor? source) =
          some edit := by
  induction violations generalizing seen edited with
  | nil => simp [planFileAfter, decidingViolation?]
  | cons violation rest inductionHypothesis =>
    rw [edits_planFileAfter_cons]
    by_cases again : (violation.line, violation.kind) ∈ seen
    · rw [if_pos again, inductionHypothesis taken]
      refine and_congr_right fun free => ?_
      rw [decidingViolation?_cons_of_taken (taken violation again) free]
    rw [if_neg again]
    by_cases used : violation.line ∈ edited
    · rw [if_pos used, inductionHypothesis (taken.cons (fun _ member => member) fun _ => used)]
      refine and_congr_right fun free => ?_
      rw [decidingViolation?_cons_of_taken (fun _ => used) free]
    rw [if_neg used]
    cases found : editFor? source violation with
    | none =>
      have notEditable : isEditable source.lines violation = true → violation.line ∈ edited := by
        rw [editFor?_eq_none.mp found]
        exact fun impossible => absurd impossible Bool.false_ne_true
      simp only
      rw [inductionHypothesis (taken.cons (fun _ member => member) notEditable)]
      refine and_congr_right fun free => ?_
      rw [decidingViolation?_cons_of_taken notEditable free]
    | some made =>
      -- the edit takes its line: the later ones go elsewhere
      have editable : isEditable source.lines violation = true := by
        rw [← isSome_editFor?, found, Option.isSome_some]
      obtain ⟨_, place, _⟩ := editFor?_names found
      simp only
      rw [List.mem_cons, inductionHypothesis (taken.cons
        (fun _ member => List.mem_cons_of_mem _ member) fun _ => List.mem_cons_self),
        decidingViolation?_cons, List.mem_cons, not_or]
      by_cases sameLine : violation.line = edit.line
      · rw [if_pos ⟨sameLine, editable⟩, Option.bind_some, found, Option.some_inj]
        constructor
        · rintro (rfl | ⟨⟨apart, _⟩, _⟩)
          · exact ⟨sameLine ▸ used, rfl⟩
          · exact absurd sameLine.symm apart
        · rintro ⟨_, same⟩
          exact Or.inl same.symm
      · rw [if_neg fun both => sameLine both.1]
        constructor
        · rintro (rfl | ⟨⟨_, free⟩, decided⟩)
          · exact absurd place.symm sameLine
          · exact ⟨free, decided⟩
        · rintro ⟨free, decided⟩
          exact Or.inr ⟨⟨Ne.symm sameLine, free⟩, decided⟩

/-- The edits of a file: for each line the one that its first violation with an edit asks for. -/
theorem mem_edits_planFile {source : Source} {violations : List Violation} {edit : Edit} :
    edit ∈ (planFile source violations).edits ↔
      (decidingViolation? source.lines violations edit.line).bind (editFor? source) =
        some edit := by
  rw [planFile, mem_edits_planFileAfter fun _ member => absurd member List.not_mem_nil]
  simp

/-- An edit comes from a violation, and carries its line and its kind. -/
theorem exists_violation_of_mem_edits {source : Source} {violations : List Violation}
    {edit : Edit} (member : edit ∈ (planFile source violations).edits) :
    ∃ violation ∈ violations, editFor? source violation = some edit ∧
      edit.file = source.path ∧ edit.line = violation.line ∧ edit.kind = violation.kind ∧
      isEditable source.lines violation = true := by
  rw [mem_edits_planFile, Option.bind_eq_some_iff] at member
  obtain ⟨violation, decides, found⟩ := member
  obtain ⟨inside, _, editable⟩ := decidingViolation?_eq_some decides
  exact ⟨violation, inside, found, editFor?_names found |>.1, (editFor?_names found).2.1,
    (editFor?_names found).2.2, editable⟩

/-- No line is edited twice. -/
theorem nodup_lines_planFileAfter (source : Source) (seen : List (Int × Kind))
    (edited : List Int) (violations : List Violation) :
    ((planFileAfter source seen edited violations).edits.map (·.line)).Nodup ∧
      ∀ edit ∈ (planFileAfter source seen edited violations).edits, edit.line ∉ edited := by
  induction violations generalizing seen edited with
  | nil => simp [planFileAfter]
  | cons violation rest inductionHypothesis =>
    rw [edits_planFileAfter_cons]
    by_cases again : (violation.line, violation.kind) ∈ seen
    · rw [if_pos again]
      exact inductionHypothesis seen edited
    rw [if_neg again]
    by_cases used : violation.line ∈ edited
    · rw [if_pos used]
      exact inductionHypothesis _ edited
    rw [if_neg used]
    cases found : editFor? source violation with
    | none => exact inductionHypothesis _ edited
    | some made =>
      obtain ⟨_, place, _⟩ := editFor?_names found
      obtain ⟨distinct, apart⟩ := inductionHypothesis
        ((violation.line, violation.kind) :: seen) (violation.line :: edited)
      constructor
      · rw [List.map_cons, List.nodup_cons]
        refine ⟨fun member => ?_, distinct⟩
        obtain ⟨other, inside, same⟩ := List.mem_map.mp member
        have free := apart other inside
        rw [same, place] at free
        exact free List.mem_cons_self
      · intro edit member
        rcases List.mem_cons.mp member with rfl | later
        · rw [place]
          exact used
        · exact fun taken => apart edit later (List.mem_cons_of_mem _ taken)

theorem nodup_lines_planFile (source : Source) (violations : List Violation) :
    ((planFile source violations).edits.map (·.line)).Nodup :=
  (nodup_lines_planFileAfter source [] [] violations).1

/-- Every edit names a line of the file. -/
theorem line_inside_planFile {source : Source} {violations : List Violation} {edit : Edit}
    (member : edit ∈ (planFile source violations).edits) :
    1 ≤ edit.line ∧ edit.line ≤ source.lines.length := by
  obtain ⟨violation, _, _, _, place, _, editable⟩ := exists_violation_of_mem_edits member
  obtain ⟨index, line, shape, found⟩ := line_of_isEditable editable
  have bound : index < source.lines.length :=
    (List.getElem?_eq_some_iff.mp found).1
  omega

/-- The edits planned for a file can be made, and leave its text with each line that they name
replaced or dropped. -/
theorem applyEdits?_planFile (source : Source) (violations : List Violation) :
    applyEdits? source (planFile source violations).edits =
      some (joinLines source.content
        (editedLines (planFile source violations).edits source.lines)) :=
  applyEdits?_eq (nodup_lines_planFile source violations) fun _ member =>
    line_inside_planFile member

/-- What an edit puts in the place of a line is left. -/
theorem replacement_mem_editedLines {source : Source} {violations : List Violation} {edit : Edit}
    (member : edit ∈ (planFile source violations).edits) {text : Line}
    (replaced : edit.replacement = some text) :
    text ∈ editedLines (planFile source violations).edits source.lines := by
  obtain ⟨positive, inside⟩ := line_inside_planFile member
  have bound : (edit.line - 1).toNat < source.lines.length := by omega
  have number : edit.line = 1 + ((edit.line - 1).toNat : Int) := by omega
  refine mem_editedFrom_iff.mpr ⟨(edit.line - 1).toNat, source.lines[(edit.line - 1).toNat],
    List.getElem?_eq_getElem bound, Or.inr ⟨edit, text, ?_, replaced, rfl⟩⟩
  exact (editOf?_eq_some (nodup_lines_planFile source violations)).mpr ⟨member, number⟩

/-! ### Replacements -/

/-- A line has nothing to replace exactly if no call stands in its code. -/
theorem callSpans?_eq_some_nil {code : Line} :
    callSpans? code = some [] ↔
      Text.occurrences unwrapText code = [] ∧ Text.occurrences expectText code = [] := by
  constructor
  · intro none
    obtain ⟨expects, closed, none⟩ := Option.bind_eq_some_iff.mp none
    have empty := congrArg List.length (Option.some.inj none)
    rw [List.length_mergeSort, List.length_append, List.length_map, List.length_nil] at empty
    have noExpects : expects = [] := List.length_eq_zero_iff.mp (by omega)
    refine ⟨List.length_eq_zero_iff.mp (by omega), ?_⟩
    cases shape : Text.occurrences expectText code with
    | nil => rfl
    | cons start rest =>
      rw [shape, noExpects, List.mapM_cons] at closed
      obtain ⟨span, _, closed⟩ := Option.bind_eq_some_iff.mp closed
      obtain ⟨spans, _, closed⟩ := Option.bind_eq_some_iff.mp closed
      cases closed
  · rintro ⟨unwraps, expects⟩
    simp [callSpans?, unwraps, expects]

/-- A character of a text with stretches replaced is one of the text or a question mark. -/
theorem mem_replaceSpans {offset : Nat} {spans : List Span} {line : Line} {character : Char}
    (member : character ∈ replaceSpans offset spans line) :
    character ∈ line ∨ character = '?' := by
  induction spans generalizing offset line with
  | nil => exact Or.inl member
  | cons span rest inductionHypothesis =>
    rw [replaceSpans] at member
    rcases List.mem_append.mp member with before | after
    · exact Or.inl (List.mem_of_mem_take before)
    · rcases List.mem_cons.mp after with mark | later
      · exact Or.inr mark
      · rcases inductionHypothesis later with inside | mark
        · exact Or.inl (List.mem_of_mem_drop inside)
        · exact Or.inr mark

/-- A rewritten line has no line break. -/
theorem isPlain_replacement {path : String} {content : List Char} {violations : List Violation}
    {edit : Edit} (member : edit ∈ (planFile (.ofText path content) violations).edits)
    {text : Line} (replaced : edit.replacement = some text) : Text.IsPlain text := by
  obtain ⟨violation, _, found, _, _, _, editable⟩ := exists_violation_of_mem_edits member
  obtain ⟨index, line, place, there⟩ := line_of_isEditable editable
  have plain : Text.IsPlain line :=
    Text.isPlain_of_mem_lines line (List.mem_of_getElem? there)
  have planned := plan_of_replacement found replaced
  rw [plan_of_line place there] at planned
  have unwraps (shape : propagateErrors line = .replace text edit.description) :
      Text.IsPlain text := by
    rw [propagateErrors] at shape
    split at shape
    · cases shape
    · cases shape
    · rw [← (Plan.replace.inj shape).1]
      intro character inside
      rcases mem_replaceSpans inside with own | mark
      · exact plain character own
      · rw [mark]
        rfl
  cases kind : violation.kind <;> rw [kind] at planned
  case unwrapInProduction =>
    simp only at planned
    split at planned
    · exact unwraps planned
    · cases planned
  case underscoreBandaid =>
    simp only [removeDiscard] at planned
    repeat' split at planned
    all_goals cases planned
  all_goals cases planned

end CrateAudit.Fix

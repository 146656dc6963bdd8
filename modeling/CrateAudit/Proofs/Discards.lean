/-
This file says what a statement looks like that may be removed: blanks, `let`, an
underscore, a value without calls, fields and macros, and a semicolon, and nothing
else in code. Such a line has no call that panics, so no line can be both rewritten
and removed.
-/

import CrateAudit.Proofs.Planning
import CrateAudit.Proofs.Trials

namespace CrateAudit.Fix

open Regex

/-! ### The value of a discarded binding -/

/-- A place that follows another well placed one after a text is well placed. -/
theorem wellPlaced_of_passes {place next : Place} {text : List Char}
    (passes : place.Passes text next) (wellPlaced : place.offset = place.before.length) :
    next.offset = next.before.length := by
  rw [passes.offset, passes.before, wellPlaced, List.length_append, List.length_reverse,
    Nat.add_comm]

/-- What is captured up to a place is the text that was passed, wherever the line goes on. -/
theorem captured?_capture {place next : Place} {text : List Char} {index : Nat}
    (passes : place.Passes text next) (wellPlaced : place.offset = place.before.length) :
    (next.capture index place.offset).captured? index = some text := by
  have whole : next.before.reverse = place.before.reverse ++ text := by
    rw [passes.before, List.reverse_append, List.reverse_reverse]
  have size : next.offset = (place.before.reverse ++ text).length := by
    rw [passes.offset, wellPlaced, List.length_append, List.length_reverse]
  simp only [Place.captured?, Place.capture, List.lookup_cons, beq_self_eq_true,
    Option.map_some, Place.between, whole, size]
  rw [List.take_left', List.drop_left']
  · rw [List.length_reverse, wellPlaced]
  · rfl

/-- Passing more text changes no captured text. -/
theorem captured?_of_passes {place next : Place} {text : List Char} {index : Nat}
    (passes : place.Passes text next) : next.captured? index = place.captured? index := by
  have same := passes.line
  simp only [Place.line] at same
  simp only [Place.captured?, Place.between, passes.groups, same]

/-- The start of a statement that discards its value. -/
inductive OpensDiscard : Line → Prop where
  | intro {margin gap inner : Line}
    (margin_blank : ∀ character ∈ margin, Text.isBlank character = true) (isGap : Text.IsGap gap)
    (inner_blank : ∀ character ∈ inner, Text.isBlank character = true) :
    OpensDiscard (margin ++ ("let".toList ++ (gap ++ ('_' :: (inner ++ ['='])))))

/-- A match of the whole statement passes it part by part, and captures the value. -/
theorem exists_passes_of_simpleDiscard {code : Line} {final : Place}
    (way : Reaches simpleDiscard (Place.start code) final) :
    ∃ (head lead value trail : Line) (first last : Place), OpensDiscard head ∧
      (∀ character ∈ lead, Text.isBlank character = true) ∧ value ≠ [] ∧ ';' ∉ value ∧
      (∀ character ∈ trail ++ final.after, Text.isBlank character = true) ∧
      (Place.start code).Passes (head ++ lead) first ∧ first.Passes value last ∧
      (last.capture 1 first.offset).Passes ([';'] ++ trail) final := by
  rw [simpleDiscard, List.append_assoc, reaches_inOrder_append] at way
  obtain ⟨afterMargin, opening, way⟩ := way
  obtain ⟨atStart, ⟨_, rfl⟩, blanks⟩ := reaches_inOrder_cons.mp opening
  obtain ⟨margin, margin_blank, _, passesMargin⟩ := passes_of_blanks blanks
  obtain ⟨afterLet, word, way⟩ := reaches_inOrder_append.mp way
  have passesLet := reaches_parts.mp word
  obtain ⟨afterGap, blanks, way⟩ := reaches_inOrder_cons.mp way
  obtain ⟨gap, gap_blank, gap_long, passesGap⟩ := passes_of_blanks blanks
  obtain ⟨afterUnderscore, underscore, way⟩ := reaches_inOrder_cons.mp way
  have passesUnderscore := reaches_exactly.mp underscore
  obtain ⟨beforeEquals, blanks, way⟩ := reaches_inOrder_cons.mp way
  obtain ⟨inner, inner_blank, _, passesInner⟩ := passes_of_blanks blanks
  obtain ⟨afterEquals, equals, way⟩ := reaches_inOrder_cons.mp way
  have passesEquals := reaches_exactly.mp equals
  obtain ⟨beforeValue, blanks, way⟩ := reaches_inOrder_cons.mp way
  obtain ⟨lead, lead_blank, _, passesLead⟩ := passes_of_blanks blanks
  obtain ⟨captureEnd, ⟨afterValue, rounds, rfl⟩, way⟩ := reaches_inOrder_cons.mp way
  obtain ⟨count, enough, rounds⟩ := rounds
  obtain ⟨value, size, admitted, passesValue⟩ := passes_of_rounds rounds
  obtain ⟨afterSemicolon, semicolon, way⟩ := reaches_inOrder_cons.mp way
  have passesSemicolon := reaches_exactly.mp semicolon
  obtain ⟨beforeFinish, blanks, way⟩ := reaches_inOrder_cons.mp way
  obtain ⟨trail, trail_blank, _, passesTrail⟩ := passes_of_blanks blanks
  obtain ⟨atFinish, rfl⟩ := way
  have finish_blank : ∀ character ∈ final.after, Text.isBlank character = true := by
    simp only [Anchor.holds, Bool.or_eq_true, List.isEmpty_iff, beq_iff_eq] at atFinish
    rcases atFinish with empty | feed
    · rw [empty]
      exact fun _ member => absurd member List.not_mem_nil
    · rw [feed]
      exact List.forall_mem_singleton.mpr rfl
  have passesHead := (passesMargin.append (passesLet.append (passesGap.append
    (passesUnderscore.append (passesInner.append passesEquals))))).append passesLead
  refine ⟨_, lead, value, trail, beforeValue, afterValue,
    .intro margin_blank ⟨List.ne_nil_of_length_pos gap_long, gap_blank⟩ inner_blank, lead_blank,
    List.ne_nil_of_length_pos (by omega), fun member => ?_,
    List.forall_mem_append.mpr ⟨trail_blank, finish_blank⟩, passesHead, passesValue,
    passesSemicolon.append passesTrail⟩
  have apart : ';' ∉ [';'] := admits_noneOf.mp (admitted ';' member)
  exact apart (List.mem_singleton_self ';')

/-- A match captures a value that stands alone in its statement, and the statement stands alone
in code. -/
theorem discard_parts {code : Line} {found : Match}
    (matched : simpleDiscard.matchStart? code = some found) :
    ∃ head lead value rest : Line, OpensDiscard head ∧
      (∀ character ∈ lead, Text.isBlank character = true) ∧ value ≠ [] ∧ ';' ∉ value ∧
      (∀ character ∈ rest, Text.isBlank character = true) ∧
      code = head ++ (lead ++ value ++ ';' :: rest) ∧ found.group? 1 = some value := by
  have way := reaches_of_matchStart? matched
  rw [Match.group?]
  generalize found.final = final at way
  obtain ⟨head, lead, value, trail, first, last, opens, lead_blank, filled, single, tail_blank,
    passesHead, passesValue, passesEnd⟩ := exists_passes_of_simpleDiscard way
  have captured : (last.capture 1 first.offset).captured? 1 = some value :=
    captured?_capture passesValue (wellPlaced_of_passes passesHead rfl)
  have start := (passesHead.append passesValue).after
  have rest : last.after = ([';'] ++ trail) ++ final.after := passesEnd.after
  rw [rest] at start
  refine ⟨head, lead, value, trail ++ final.after, opens, lead_blank, filled, single, tail_blank,
    start.trans ?_, (captured?_of_passes passesEnd).trans captured⟩
  simp only [List.append_assoc, List.cons_append, List.nil_append]

/-- What is taken for a discarded value stands in a statement that does nothing else. -/
theorem discard_shape {code value : Line}
    (found : (simpleDiscard.matchStart? code).bind (·.group? 1) = some value) :
    ∃ margin gap tail : Line, code = margin ++ ("let".toList ++ (gap ++ (value ++ tail))) ∧
      (∀ character ∈ margin, Text.isBlank character = true) ∧
      (∀ character ∈ gap, Text.isBlank character = true ∨ character = '_' ∨ character = '=') ∧
      (∀ character ∈ tail, Text.isBlank character = true ∨ character = ';') := by
  obtain ⟨_, matched, captured⟩ := Option.bind_eq_some_iff.mp found
  obtain ⟨head, lead, own, rest, opens, lead_blank, _, _, rest_blank, rfl, captured'⟩ :=
    discard_parts matched
  cases captured.symm.trans captured'
  obtain @⟨margin, gap, inner, margin_blank, isGap, inner_blank⟩ := opens
  refine ⟨margin, gap ++ '_' :: (inner ++ '=' :: lead), ';' :: rest, ?_, margin_blank, ?_, ?_⟩
  · simp only [List.append_assoc, List.cons_append, List.nil_append]
  · intro character member
    simp only [List.mem_append, List.mem_cons] at member
    rcases member with inside | same | inside | same | inside
    · exact Or.inl (isGap.blank character inside)
    · exact Or.inr (Or.inl same)
    · exact Or.inl (inner_blank character inside)
    · exact Or.inr (Or.inr same)
    · exact Or.inl (lead_blank character inside)
  · intro character member
    rcases List.mem_cons.mp member with same | inside
    · exact Or.inr same
    · exact Or.inl (rest_blank character inside)

/-! ### Removed lines -/

/-- A line that is removed discards a value that runs no code. -/
theorem value_of_removeDiscard {line : Line} (removed : (removeDiscard line).isApplicable = true) :
    Rule.underscoreBinding.regex.startsLine line = true ∧
      ∃ value, (simpleDiscard.matchStart? (Rust.codeOnly line)).bind (·.group? 1) = some value ∧
        mayRunCode value = false := by
  rw [removeDiscard] at removed
  split at removed
  · cases removed
  · rename_i starts
    refine ⟨by simpa using starts, ?_⟩
    split at removed
    · cases removed
    · rename_i value found
      refine ⟨value, found, ?_⟩
      split at removed
      · cases removed
      · rename_i plain
        exact Bool.not_eq_true _ |>.mp plain

/-- The code of a line that is removed has no parenthesis. -/
theorem parenthesis_not_mem_of_removeDiscard {line : Line}
    (removed : (removeDiscard line).isApplicable = true) : '(' ∉ Rust.codeOnly line := by
  obtain ⟨_, value, found, plain⟩ := value_of_removeDiscard removed
  obtain ⟨margin, gap, tail, shape, margin_blank, gap_plain, tail_plain⟩ := discard_shape found
  have value_plain : '(' ∉ value := by
    simp only [mayRunCode, Bool.or_eq_false_iff, List.contains_eq_mem, decide_eq_false_iff_not]
      at plain
    exact plain.1.1
  have notBlank : ¬ Text.isBlank '(' = true := by decide
  rw [shape]
  simp only [List.mem_append, not_or]
  refine ⟨fun inside => notBlank (margin_blank _ inside), by decide, ?_, value_plain, ?_⟩
  · intro inside
    rcases gap_plain _ inside with blank | other | other
    · exact notBlank blank
    · exact absurd other (by decide)
    · exact absurd other (by decide)
  · intro inside
    rcases tail_plain _ inside with blank | other
    · exact notBlank blank
    · exact absurd other (by decide)

/-- A line in which a call is replaced has a parenthesis in code. -/
theorem parenthesis_mem_of_propagateErrors {line : Line}
    (replaced : (propagateErrors line).isApplicable = true) : '(' ∈ Rust.codeOnly line := by
  refine Decidable.byContradiction fun absent => ?_
  have none_of (sought : Line) (member : '(' ∈ sought) :
      Text.occurrences sought (Rust.codeOnly line) = [] := by
    refine Decidable.byContradiction fun some => absent ?_
    exact Text.mem_of_includes (Text.includes_iff_occurrences_ne_nil.mpr some) member
  have nothing : callSpans? (Rust.codeOnly line) = some [] :=
    callSpans?_eq_some_nil.mpr
      ⟨none_of unwrapText (by decide), none_of expectText (by decide)⟩
  rw [propagateErrors, nothing] at replaced
  cases replaced

/-- No line can be both rewritten and removed. -/
theorem not_removed_of_replaced {line : Line}
    (replaced : (propagateErrors line).isApplicable = true) :
    (removeDiscard line).isApplicable = false := by
  refine Bool.not_eq_true _ |>.mp fun removed => ?_
  exact parenthesis_not_mem_of_removeDiscard removed
    (parenthesis_mem_of_propagateErrors replaced)

/-- At most one kind of violation is edited away on a line. -/
theorem kind_eq_of_isEditable {lines : List Line} {first second : Violation}
    (sameLine : first.line = second.line) (editable : isEditable lines first = true)
    (editable' : isEditable lines second = true) : first.kind = second.kind := by
  obtain ⟨index, line, place, found⟩ := line_of_isEditable editable
  have apart {unwrap discard : Violation} (unwrapPlace : unwrap.line = (index : Int) + 1)
      (discardPlace : discard.line = (index : Int) + 1)
      (unwrapKind : unwrap.kind = .unwrapInProduction)
      (discardKind : discard.kind = .underscoreBandaid)
      (unwrapEditable : isEditable lines unwrap = true)
      (discardEditable : isEditable lines discard = true) : False := by
    rw [isEditable, plan_of_line unwrapPlace found, unwrapKind] at unwrapEditable
    rw [isEditable, plan_of_line discardPlace found, discardKind] at discardEditable
    simp only at unwrapEditable discardEditable
    split at unwrapEditable
    · rw [not_removed_of_replaced unwrapEditable] at discardEditable
      cases discardEditable
    · cases unwrapEditable
  have place' : second.line = (index : Int) + 1 := sameLine ▸ place
  rcases kind_of_isEditable editable with kind | kind <;>
    rcases kind_of_isEditable editable' with kind' | kind'
  · rw [kind, kind']
  · exact (apart place place' kind kind' editable editable').elim
  · exact (apart place' place kind' kind editable' editable).elim
  · rw [kind, kind']

/-- The edits of a file are those of its violations that can be edited away. -/
theorem exists_edit_iff {source : Source} {violations : List Violation} {number : Int}
    {kind : Kind} :
    (∃ edit ∈ (planFile source violations).edits, edit.line = number ∧ edit.kind = kind) ↔
      ∃ violation ∈ violations, violation.line = number ∧ violation.kind = kind ∧
        isEditable source.lines violation = true := by
  constructor
  · rintro ⟨edit, member, rfl, rfl⟩
    obtain ⟨violation, inside, _, _, line, kind, editable⟩ := exists_violation_of_mem_edits member
    exact ⟨violation, inside, line.symm, kind.symm, editable⟩
  · rintro ⟨violation, inside, rfl, rfl, editable⟩
    have decided : (decidingViolation? source.lines violations violation.line).isSome = true := by
      rw [decidingViolation?, List.find?_isSome]
      exact ⟨violation, inside, by simp [editable]⟩
    obtain ⟨deciding, decides⟩ := Option.isSome_iff_exists.mp decided
    obtain ⟨_, sameLine, editable'⟩ := decidingViolation?_eq_some decides
    obtain ⟨edit, found⟩ : ∃ edit, editFor? source deciding = some edit := by
      rw [← Option.isSome_iff_exists, isSome_editFor?, editable']
    obtain ⟨_, line, kind⟩ := editFor?_names found
    refine ⟨edit, ?_, line.trans sameLine, kind.trans ?_⟩
    · rw [mem_edits_planFile, line, sameLine, decides, Option.bind_some, found]
    · exact kind_eq_of_isEditable sameLine editable' editable

/-- A file has no edits exactly if none of its violations can be edited away. -/
theorem edits_planFile_eq_nil {source : Source} {violations : List Violation} :
    (planFile source violations).edits = [] ↔
      ∀ violation ∈ violations, isEditable source.lines violation = false := by
  constructor
  · intro none violation member
    refine Bool.not_eq_true _ |>.mp fun editable => ?_
    obtain ⟨edit, inside, _⟩ := exists_edit_iff.mpr ⟨violation, member, rfl, rfl, editable⟩
    rw [none] at inside
    cases inside
  · intro settled
    refine List.eq_nil_iff_forall_not_mem.mpr fun edit inside => ?_
    obtain ⟨violation, member, _, _, editable⟩ :=
      exists_edit_iff.mp ⟨edit, inside, rfl, rfl⟩
    rw [settled violation member] at editable
    cases editable

end CrateAudit.Fix

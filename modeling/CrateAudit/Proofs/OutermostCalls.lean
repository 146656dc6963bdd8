/-
This file says which calls of a line are replaced: the outermost ones. Each call that panics
goes up to the partner of its parenthesis, so two of them are nested or apart, and the ones
that are kept, from left to right, are apart and hold all the others. Nothing outside of them
changes, and no call is left in the code of the new line, nor does one come about there.
-/

import CrateAudit.Proofs.Partners
import CrateAudit.Proofs.ReportedCalls
import CrateAudit.Proofs.Splicing

namespace CrateAudit.Fix

/-! ### Calls that panic -/

/-- The beginnings of calls that panic. -/
def callTexts : List Line := [unwrapText, expectText]

/-- A call begins at an offset of a line, in code. -/
structure CallsAt (text line : Line) (start : Nat) : Prop where
  occurs : start ∈ Text.occurrences text line
  inCode : (Rust.lex line).contextAt start = .code

/-- A stretch of a line from the start of a call to just after the partner of its parenthesis. -/
structure IsCall (line : Line) (span : Span) : Prop where
  call : ∃ text ∈ callTexts, CallsAt text line span.1 ∧
    ∃ closing, ArePartners (Rust.codeOnly line) (span.1 + text.idxOf '(') closing ∧
      span.2 = closing + 1

variable {code line text : Line} {start : Nat} {span : Span} {spans : List Span}

theorem callsAt_iff (isCall : text ∈ callTexts) :
    CallsAt text line start ↔ start ∈ Text.occurrences text (Rust.codeOnly line) := by
  have plain : text ≠ [] ∧ ∀ before, Rust.IsPlainCode before text := by
    rcases List.mem_pair.mp isCall with rfl | rfl
    · exact ⟨by decide, Scan.isPlainCode_unwrap⟩
    · exact ⟨by decide, Scan.isPlainCode_expect⟩
  rw [Rust.mem_occurrences_codeOnly plain.1 plain.2]
  exact ⟨fun calls => ⟨calls.occurs, calls.inCode⟩, fun both => ⟨both.1, both.2⟩⟩

/-- The characters of a call up to its parenthesis. -/
theorem getElem?_of_occurrence (isCall : text ∈ callTexts)
    (occurs : start ∈ Text.occurrences text code) {offset : Nat} (inside : offset ≤ 7) :
    code[start + offset]? = text[offset]? := by
  have long : 8 ≤ text.length := by
    rcases List.mem_pair.mp isCall with rfl | rfl <;> decide
  obtain ⟨rest, shape⟩ := (Text.mem_occurrences.mp occurs).2
  rw [← List.getElem?_drop, ← shape, List.getElem?_append_left (by omega)]

theorem idxOf_of_mem_callTexts (isCall : text ∈ callTexts) : text.idxOf '(' = 7 := by
  rcases List.mem_pair.mp isCall with rfl | rfl <;> decide

/-- A call has a parenthesis. -/
theorem exists_drop_of_occurrence (isCall : text ∈ callTexts)
    (occurs : start ∈ Text.occurrences text code) :
    ∃ rest, code.drop (start + 7) = '(' :: rest := by
  have opens : code[start + 7]? = some '(' := by
    rw [getElem?_of_occurrence isCall occurs (Nat.le_refl 7)]
    rcases List.mem_pair.mp isCall with rfl | rfl <;> decide
  obtain ⟨inside, here⟩ := List.getElem?_eq_some_iff.mp opens
  exact ⟨_, by rw [List.drop_eq_getElem_cons inside, here]⟩

/-- An `.unwrap()` closes at once. -/
theorem arePartners_of_unwrap (occurs : start ∈ Text.occurrences unwrapText code) :
    ArePartners code (start + 7) (start + 8) := by
  obtain ⟨rest, shape⟩ := (Text.mem_occurrences.mp occurs).2
  refine ⟨[], rest, ?_, .nil, rfl⟩
  rw [← List.drop_drop, ← shape]
  rfl

/-- Calls are nested or apart. -/
theorem IsCall.nested {first second : Span} (isCall : IsCall line first)
    (isCall' : IsCall line second) (after : first.1 ≤ second.1) (before : second.1 < first.2) :
    second.2 ≤ first.2 := by
  obtain ⟨text, known, calls, closing, partners, finish⟩ := isCall.call
  obtain ⟨text', known', calls', closing', partners', finish'⟩ := isCall'.call
  rw [idxOf_of_mem_callTexts known] at partners
  rw [idxOf_of_mem_callTexts known'] at partners'
  rw [callsAt_iff known'] at calls'
  rcases Nat.eq_or_lt_of_le after with same | later
  · rw [same] at partners
    have := partners.unique partners'
    omega
  -- No parenthesis closes on the way to that of the second call.
  have apart : second.1 + 7 < closing := by
    refine Nat.lt_of_not_le fun early => ?_
    obtain ⟨offset, place⟩ := Nat.exists_eq_add_of_le (show second.1 ≤ closing by omega)
    have near : offset < 8 := by omega
    have closes := partners.lt.2
    rw [place, getElem?_of_occurrence known' calls' (by omega)] at closes
    have open_ : ∀ text ∈ callTexts, ∀ offset < 8, text[offset]? ≠ some ')' := by decide
    exact open_ text' known' offset near closes
  obtain ⟨rest, opens⟩ := exists_drop_of_occurrence known' calls'
  obtain ⟨own, within, partners''⟩ := partners.exists_within opens (by omega) apart
  have := partners'.unique partners''
  omega

/-! ### The stretches that are found -/

theorem expectSpan?_eq_some_iff (occurs : start ∈ Text.occurrences expectText code) :
    expectSpan? code start = some span ↔
      span.1 = start ∧ ∃ closing, ArePartners code (start + 7) closing ∧ span.2 = closing + 1 := by
  obtain ⟨rest, opens⟩ := exists_drop_of_occurrence (by decide) occurs
  have opening : start + expectText.length - 1 = start + 7 := rfl
  simp only [expectSpan?, opening, arePartners_iff opens, Option.map_eq_some_iff]
  constructor
  · rintro ⟨closing, found, rfl⟩
    exact ⟨rfl, closing, found, rfl⟩
  · rintro ⟨rfl, closing, found, finish⟩
    exact ⟨closing, found, by rw [← finish]⟩

/-- There is no answer exactly if the parenthesis of some call has no partner. -/
theorem callSpans?_eq_none_iff :
    callSpans? code = none ↔ ∃ start ∈ Text.occurrences expectText code,
      ¬ ∃ closing, ArePartners code (start + 7) closing := by
  have collected : callSpans? code = none ↔
      (Text.occurrences expectText code).mapM (expectSpan? code) = none := by
    rw [callSpans?]
    cases (Text.occurrences expectText code).mapM (expectSpan? code) <;> simp
  rw [collected, mapM_eq_none_iff]
  refine exists_congr fun start => and_congr_right fun occurs => ?_
  rw [Option.eq_none_iff_forall_ne_some]
  simp only [ne_eq, expectSpan?_eq_some_iff occurs]
  constructor
  · rintro none ⟨closing, partners⟩
    exact none (start, closing + 1) ⟨rfl, closing, partners, rfl⟩
  · rintro none span ⟨_, closing, partners, _⟩
    exact none ⟨closing, partners⟩

theorem mem_callSpans?_iff (found : callSpans? (Rust.codeOnly line) = some spans) :
    span ∈ spans ↔ IsCall line span := by
  obtain ⟨expects, collected, sorted⟩ := Option.bind_eq_some_iff.mp found
  rw [← Option.some.inj sorted, List.mem_mergeSort, List.mem_append, List.mem_map]
  have expect : span ∈ expects ↔ ∃ start ∈ Text.occurrences expectText (Rust.codeOnly line),
      expectSpan? (Rust.codeOnly line) start = some span := by
    have images := congrArg (some span ∈ ·) (mapM_eq_some_iff.mp collected)
    simpa [List.mem_map, eq_comm] using images.symm
  rw [expect]
  constructor
  · rintro (⟨start, occurs, rfl⟩ | ⟨start, occurs, found⟩)
    · have known : unwrapText ∈ callTexts := by decide
      exact ⟨unwrapText, known, (callsAt_iff known).mpr occurs, start + 8,
        arePartners_of_unwrap occurs, rfl⟩
    · have known : expectText ∈ callTexts := by decide
      obtain ⟨rfl, closing, partners, finish⟩ := (expectSpan?_eq_some_iff occurs).mp found
      exact ⟨expectText, known, (callsAt_iff known).mpr occurs, closing, partners, finish⟩
  · rintro ⟨text, known, calls, closing, partners, finish⟩
    have occurs := (callsAt_iff known).mp calls
    rcases List.mem_pair.mp known with rfl | rfl
    · refine Or.inl ⟨span.1, occurs, ?_⟩
      have closes := (arePartners_of_unwrap occurs).unique partners
      refine Prod.ext rfl ?_
      rw [finish, ← closes]
      rfl
    · exact Or.inr ⟨span.1, occurs,
        (expectSpan?_eq_some_iff occurs).mpr ⟨rfl, closing, partners, finish⟩⟩

theorem pairwise_callSpans? (found : callSpans? code = some spans) :
    spans.Pairwise (·.1 ≤ ·.1) := by
  obtain ⟨expects, _, sorted⟩ := Option.bind_eq_some_iff.mp found
  rw [← Option.some.inj sorted]
  refine (List.pairwise_mergeSort ?_ ?_ _).imp fun before => of_decide_eq_true before
  · intro first second third before before'
    simp only [decide_eq_true_eq] at before before' ⊢
    omega
  · intro first second
    simp only [Bool.or_eq_true, decide_eq_true_eq]
    omega

/-! ### The outermost ones -/

theorem outermostFrom_sublist (finish : Nat) (spans : List Span) :
    (outermostFrom finish spans).Sublist spans := by
  induction spans generalizing finish with
  | nil => exact .slnil
  | cons span rest inductionHypothesis =>
    rw [outermostFrom]
    split
    · exact (inductionHypothesis finish).cons span
    · exact (inductionHypothesis span.2).cons_cons span

theorem inOrder_outermostFrom (finish : Nat) (filled : ∀ span ∈ spans, span.1 < span.2) :
    InOrder finish (outermostFrom finish spans) := by
  induction spans generalizing finish with
  | nil => trivial
  | cons span rest inductionHypothesis =>
    obtain ⟨here, later⟩ := List.forall_mem_cons.mp filled
    rw [outermostFrom]
    split
    · exact inductionHypothesis finish later
    · rename_i behind
      exact ⟨Nat.le_of_not_lt behind, here, inductionHypothesis span.2 later⟩

/-- Where stretches are nested or apart, each of them that starts late enough lies in one that is
kept. -/
theorem exists_outermost (finish : Nat) (ascending : spans.Pairwise (·.1 ≤ ·.1))
    (nested : ∀ first ∈ spans, ∀ second ∈ spans, first.1 ≤ second.1 → second.1 < first.2 →
      second.2 ≤ first.2) (member : span ∈ spans) :
    span.1 < finish ∨ ∃ kept ∈ outermostFrom finish spans, kept.1 ≤ span.1 ∧ span.2 ≤ kept.2 := by
  induction spans generalizing finish with
  | nil => cases member
  | cons first rest inductionHypothesis =>
    obtain ⟨least, ascending⟩ := List.pairwise_cons.mp ascending
    have step := fun finish inside => inductionHypothesis finish ascending
      (fun own member other member' => nested own (List.mem_cons_of_mem _ member) other
        (List.mem_cons_of_mem _ member')) inside
    rw [outermostFrom]
    split
    · rename_i covered
      rcases List.mem_cons.mp member with rfl | inside
      · exact Or.inl covered
      · exact step finish inside
    · refine Or.inr ?_
      rcases List.mem_cons.mp member with rfl | inside
      · exact ⟨_, List.mem_cons_self, Nat.le_refl _, Nat.le_refl _⟩
      rcases step first.2 inside with covered | ⟨kept, among, bounds⟩
      · exact ⟨first, List.mem_cons_self, least span inside, nested first List.mem_cons_self span
          (List.mem_cons_of_mem _ inside) (least span inside) covered⟩
      · exact ⟨kept, List.mem_cons_of_mem _ among, bounds⟩

theorem InOrder.pairwise {offset : Nat} (inOrder : InOrder offset spans) :
    spans.Pairwise (·.2 ≤ ·.1) := by
  induction spans generalizing offset with
  | nil => exact .nil
  | cons span rest inductionHypothesis =>
    exact List.pairwise_cons.mpr
      ⟨fun own member => (inOrder.2.2.bounds member).1, inductionHypothesis inOrder.2.2⟩

/-! ### Lines with calls -/

/-- A call is not empty, begins with a dot and ends with a parenthesis. -/
theorem IsCall.ends (isCall : IsCall line span) :
    span.1 < span.2 ∧ (Rust.codeOnly line)[span.1]? = some '.' ∧
      (Rust.codeOnly line)[span.2 - 1]? = some ')' := by
  obtain ⟨text, known, calls, closing, partners, finish⟩ := isCall.call
  rw [idxOf_of_mem_callTexts known] at partners
  have := partners.lt.1
  refine ⟨by omega, ?_, ?_⟩
  · refine (getElem?_of_occurrence known ((callsAt_iff known).mp calls) (Nat.zero_le 7)).trans ?_
    rcases List.mem_pair.mp known with rfl | rfl <;> rfl
  · rw [finish]
    exact partners.lt.2

theorem length_codeAfter_le (before line : Line) :
    (Rust.codeAfter before line).length ≤ line.length := by
  fun_induction Rust.tokensAfter before line with
  | case1 before => rw [Rust.codeAfter_nil]
  | case2 before first rest step =>
    rename_i inductionHypothesis
    have whole := congrArg List.length (Rust.nextToken_append before first rest)
    have shorter : step.1.blanked.length ≤ step.1.text.length := by
      rw [Rust.Token.blanked]
      split
      · exact Nat.le_refl _
      · exact Nat.zero_le _
      all_goals exact List.length_replicate.le
    rw [List.length_append] at whole
    rw [Rust.codeAfter_cons, List.length_append, ← whole]
    exact Nat.add_le_add shorter inductionHypothesis

/-- A call ends within its line. -/
theorem IsCall.within (isCall : IsCall line span) : span.2 ≤ line.length := by
  have closes := (List.getElem?_eq_some_iff.mp isCall.ends.2.2).1
  have shorter : (Rust.codeOnly line).length ≤ line.length := length_codeAfter_le [] line
  omega

/-- Stretches of a line that are apart, are calls and hold all calls. -/
structure AreOutermost (line : Line) (spans : List Span) : Prop where
  apart : spans.Pairwise (·.2 ≤ ·.1)
  calls : ∀ span ∈ spans, IsCall line span
  covers : ∀ text ∈ callTexts, ∀ start, CallsAt text line start →
    ∃ finish, IsCall line (start, finish) ∧ ∃ span ∈ spans, span.1 ≤ start ∧ finish ≤ span.2

/-- The stretches that are kept are the outermost ones. -/
theorem areOutermost_outermostFrom (found : callSpans? (Rust.codeOnly line) = some spans) :
    InOrder 0 (outermostFrom 0 spans) ∧ AreOutermost line (outermostFrom 0 spans) := by
  have calls (span : Span) (member : span ∈ spans) : IsCall line span :=
    (mem_callSpans?_iff found).mp member
  have inOrder : InOrder 0 (outermostFrom 0 spans) :=
    inOrder_outermostFrom 0 fun span member => (calls span member).ends.1
  refine ⟨inOrder, inOrder.pairwise,
    fun span member => calls span ((outermostFrom_sublist 0 spans).subset member), ?_⟩
  intro text known start calls'
  obtain ⟨finish, isCall⟩ : ∃ finish, IsCall line (start, finish) := by
    have occurs := (callsAt_iff known).mp calls'
    rcases List.mem_pair.mp known with rfl | rfl
    · exact ⟨_, unwrapText, known, calls', start + 8, arePartners_of_unwrap occurs, rfl⟩
    · have some_ : callSpans? (Rust.codeOnly line) ≠ none := found ▸ Option.some_ne_none spans
      have closed := not_exists.mp (mt callSpans?_eq_none_iff.mpr some_) start
      obtain ⟨closing, partners⟩ := not_not.mp fun open_ => closed ⟨occurs, open_⟩
      exact ⟨_, expectText, known, calls', closing, partners, rfl⟩
  refine ⟨finish, isCall, (exists_outermost 0 (pairwise_callSpans? found) ?_
    ((mem_callSpans?_iff found).mpr isCall)).resolve_left (Nat.not_lt_zero start)⟩
  exact fun first member second member' =>
    (calls first member).nested (calls second member')

/-- No call is left in the code of a line in which the outermost ones are replaced. -/
theorem includes_codeOnly_replaceSpans (inOrder : InOrder 0 spans)
    (outermost : AreOutermost line spans) (noApostrophe : '\'' ∉ Rust.codeOnly line)
    (known : text ∈ callTexts) :
    Text.includes text (Rust.codeOnly (replaceSpans 0 spans line)) = false := by
  have code : Rust.codeOnly (replaceSpans 0 spans line) =
      replaceSpans 0 spans (Rust.codeOnly line) :=
    codeAfter_replaceSpans inOrder (fun span member => (outermost.calls span member).ends.2)
      noApostrophe
  have solid : text ≠ [] ∧ '?' ∉ text := by
    rcases List.mem_pair.mp known with rfl | rfl <;> decide
  refine Bool.not_eq_true _ |>.mp fun found => ?_
  rw [code, Text.includes_iff_isInfix] at found
  have within : ∀ span ∈ spans, span.2 ≤ 0 + (Rust.codeOnly line).length := by
    intro span member
    obtain ⟨filled, _, closes⟩ := (outermost.calls span member).ends
    have := (List.getElem?_eq_some_iff.mp closes).1
    omega
  obtain ⟨start, _, stands, outside⟩ :=
    exists_prefix_drop_of_infix solid.1 solid.2 inOrder within found
  have calls : CallsAt text line start :=
    (callsAt_iff known).mpr ((Text.mem_occurrences_of_ne_nil solid.1).mpr stands)
  obtain ⟨finish, isCall, span, member, after, before⟩ := outermost.covers text known start calls
  have filled := isCall.ends.1
  have := outside span member
  simp only at filled
  omega

/-- A line is left to review exactly if the parenthesis of some `.expect(` in its code has no
partner, and for want of calls exactly if there is none in its code. Otherwise its outermost calls
are replaced by a question mark each and nothing else is changed, and no call is left in its code,
provided that there is no apostrophe in code. -/
theorem propagateErrors_outermost (line : Line) :
    (propagateErrors line = .skip .complexExpect ↔ ∃ start, CallsAt expectText line start ∧
      ¬ ∃ closing, ArePartners (Rust.codeOnly line) (start + expectText.idxOf '(') closing) ∧
    (propagateErrors line = .skip .noCall ↔
      ∀ text ∈ callTexts, ∀ start, ¬ CallsAt text line start) ∧
    (propagateErrors line = .skip .complexExpect ∨ propagateErrors line = .skip .noCall ∨
      ∃ spans replacement description, propagateErrors line = .replace replacement description ∧
        AreOutermost line spans ∧ replacement = line.zipIdx.flatMap (leftAt spans) ∧
        ('\'' ∉ Rust.codeOnly line → ∀ text ∈ callTexts,
          Text.includes text (Rust.codeOnly replacement) = false)) := by
  have open_ : callSpans? (Rust.codeOnly line) = none ↔ ∃ start, CallsAt expectText line start ∧
      ¬ ∃ closing, ArePartners (Rust.codeOnly line) (start + expectText.idxOf '(') closing := by
    rw [callSpans?_eq_none_iff]
    simp only [callsAt_iff (show expectText ∈ callTexts by decide),
      idxOf_of_mem_callTexts (show expectText ∈ callTexts by decide)]
  have none : callSpans? (Rust.codeOnly line) = some [] ↔
      ∀ text ∈ callTexts, ∀ start, ¬ CallsAt text line start := by
    rw [callSpans?_eq_some_nil, callTexts, List.forall_mem_cons, List.forall_mem_singleton]
    simp only [callsAt_iff (show unwrapText ∈ callTexts by decide),
      callsAt_iff (show expectText ∈ callTexts by decide), List.eq_nil_iff_forall_not_mem]
  rw [← open_, ← none]
  cases found : callSpans? (Rust.codeOnly line) with
  | none => simp [propagateErrors, found]
  | some spans =>
    cases shape : spans with
    | nil => simp [propagateErrors, found, shape]
    | cons first rest =>
      obtain ⟨inOrder, outermost⟩ := areOutermost_outermostFrom found
      have left := replaceSpans_eq_flatMap inOrder fun span member => by
        rw [Nat.zero_add]
        exact (outermost.calls span member).within
      have replaced : ∃ description, propagateErrors line =
          .replace (replaceSpans 0 (outermostFrom 0 spans) line) description := by
        rw [propagateErrors, found, shape]
        exact ⟨_, rfl⟩
      obtain ⟨description, replaced⟩ := replaced
      rw [replaced]
      refine ⟨by simp, by simp, Or.inr (Or.inr ⟨_, _, description, rfl, outermost, left,
        fun noApostrophe text known => ?_⟩)⟩
      exact includes_codeOnly_replaceSpans inOrder outermost noApostrophe known

end CrateAudit.Fix

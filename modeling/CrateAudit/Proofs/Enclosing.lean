/-
This file says which function a fix takes for the one around a line: the last of those
that reach the line and whose own line starts with the definition. The audit also takes
a line for a definition where attributes stand before it. So the fix and the audit mean
the same function exactly if no attribute stands before the innermost one on its line;
otherwise the fix goes on to a function further out.
-/

import CrateAudit.Fix.Plan
import CrateAudit.Proofs.Reaching
import CrateAudit.Scan.TestScope
import Mathlib.Data.Nat.SuccPred
import Mathlib.Order.SuccPred.Archimedean

namespace CrateAudit

/-! ### What stands first on a line -/

/-- What follows the blanks at the start of a line is found by trimming them. -/
theorem Text.trimStart_append {margin rest : Line}
    (blank : ∀ character ∈ margin, isBlank character = true)
    (filled : rest.head?.all isBlank = false) : trimStart (margin ++ rest) = rest := by
  rw [trimStart, List.dropWhile_append_of_pos blank]
  cases rest with
  | nil => cases filled
  | cons character rest =>
    exact List.dropWhile_cons_of_neg (by simpa using filled)

namespace Regex

/-- A part that may be left out is left out, or has a way from where it stands. -/
theorem reaches_perhaps {regex : Regex} {place next : Place}
    (way : Reaches (perhaps regex) place next) :
    next = place ∨ ∃ middle, Reaches regex place middle := by
  obtain ⟨count, _, rounds⟩ := way
  cases count with
  | zero => exact Or.inl rounds
  | succ count =>
    obtain ⟨middle, here, _⟩ := rounds
    exact Or.inr ⟨middle, here⟩

/-- A pattern that begins with a text is found only before that text. -/
theorem prefix_of_reaches_parts {text : String} {rest : List Regex} {place next : Place}
    (way : Reaches (inOrder (parts text ++ rest)) place next) : text.toList <+: place.after := by
  obtain ⟨middle, here, _⟩ := reaches_inOrder_append.mp way
  exact ⟨middle.after, (reaches_parts.mp here).after.symm⟩

/-- A pattern of parts that may be left out, each beginning with a word, and a last part that may
not: it is found only before one of the words. -/
theorem exists_prefix_of_reaches_perhaps {optional : List (Nat × String × List Regex)}
    {word : String} {rest : List Regex} {place next : Place}
    (way : Reaches (inOrder ((optional.map fun part =>
      perhaps (.group part.1 (inOrder (parts part.2.1 ++ part.2.2)))) ++ (parts word ++ rest)))
      place next) :
    ∃ opening ∈ optional.map (·.2.1) ++ [word], opening.toList <+: place.after := by
  induction optional with
  | nil => exact ⟨word, List.mem_singleton_self word, prefix_of_reaches_parts way⟩
  | cons part optional inductionHypothesis =>
    obtain ⟨middle, here, way⟩ := reaches_inOrder_cons.mp way
    rcases reaches_perhaps here with same | ⟨_, _, opens, _⟩
    · rw [same] at way
      obtain ⟨opening, member, opens⟩ := inductionHypothesis way
      exact ⟨opening, List.mem_cons_of_mem _ member, opens⟩
    · exact ⟨part.2.1, List.mem_cons_self, prefix_of_reaches_parts opens⟩

/-- A line that starts with such a pattern begins with one of the words, after blanks. -/
theorem exists_word_of_startsLine {optional : List (Nat × String × List Regex)} {word : String}
    {rest : List Regex} {line : Line}
    (filled : ∀ opening ∈ optional.map (·.2.1) ++ [word],
      opening.toList.head?.all Text.isBlank = false)
    (starts : (inOrder (.anchor .start :: many blank :: ((optional.map fun part =>
      perhaps (.group part.1 (inOrder (parts part.2.1 ++ part.2.2)))) ++
        (parts word ++ rest)))).startsLine line = true) :
    ∃ opening ∈ optional.map (·.2.1) ++ [word], opening.toList <+: Text.trimStart line := by
  obtain ⟨found, matched⟩ := Option.isSome_iff_exists.mp starts
  have way := reaches_of_matchStart? matched
  obtain ⟨atStart, ⟨_, rfl⟩, way⟩ := reaches_inOrder_cons.mp way
  obtain ⟨opening, blanks, way⟩ := reaches_inOrder_cons.mp way
  obtain ⟨margin, margin_blank, _, passes⟩ := passes_of_blanks blanks
  have shape : line = margin ++ opening.after := passes.after
  obtain ⟨first, member, opens⟩ := exists_prefix_of_reaches_perhaps way
  have blankless : opening.after.head?.all Text.isBlank = false := by
    obtain ⟨later, whole⟩ := opens
    have own := filled first member
    rw [← whole]
    cases letters : first.toList with
    | nil => rw [letters] at own; cases own
    | cons letter letters' => rwa [letters] at own
  refine ⟨first, member, ?_⟩
  rw [shape, Text.trimStart_append margin_blank blankless]
  exact opens

end Regex

open Regex

namespace Rule

/-- The words with which a definition of a function may begin. -/
def openingWords : List String := ["pub", "const", "async", "unsafe", "fn"]

/-- The parts of a definition that may be left out, each with its group and its word. -/
def openingParts : List (Nat × String × List Regex) :=
  [(1, "pub", [perhaps (.group 2 (inOrder ([exactly '('] ++ [many (noneOf [')'])] ++
      [exactly ')']))), atLeastOne blank]),
    (3, "const", [atLeastOne blank]), (4, "async", [atLeastOne blank]),
    (5, "unsafe", [atLeastOne blank])]

theorem functionDefinition_regex : functionDefinition.regex =
    inOrder (.anchor .start :: many blank :: ((openingParts.map fun part =>
      perhaps (.group part.1 (inOrder (parts part.2.1 ++ part.2.2)))) ++
        (parts "fn" ++ [atLeastOne blank]))) := by
  simp only [functionDefinition, openingParts, visibility, List.append_assoc, List.map_cons,
    List.map_nil, List.cons_append, List.nil_append]

/-- A definition of a function begins with one of its words, after blanks. -/
theorem exists_openingWord {line : Line}
    (starts : functionDefinition.regex.startsLine line = true) :
    ∃ word ∈ openingWords, word.toList <+: Text.trimStart line := by
  rw [functionDefinition_regex] at starts
  exact exists_word_of_startsLine (by decide) starts

end Rule

namespace Scan

/-- Attributes at the start of a line begin with their mark, after blanks. -/
theorem prefix_of_leadingAttributes {line : Line}
    (starts : leadingAttributes.startsLine line = true) :
    "#[".toList <+: Text.trimStart line := by
  obtain ⟨found, matched⟩ := Option.isSome_iff_exists.mp starts
  have way := reaches_of_matchStart? matched
  generalize found.final = final at way
  rw [leadingAttributes] at way
  obtain ⟨atStart, ⟨_, rfl⟩, way⟩ := reaches_inOrder_cons.mp way
  obtain ⟨begin_, blanks, way⟩ := reaches_inOrder_cons.mp way
  obtain ⟨margin, margin_blank, _, passes⟩ := passes_of_blanks blanks
  obtain ⟨count, positive, rounds⟩ := way
  obtain ⟨count, rfl⟩ := Nat.exists_eq_succ_of_ne_zero (Nat.one_le_iff_ne_zero.mp positive)
  obtain ⟨middle, ⟨_, mark, _⟩, _⟩ := rounds
  have opens : "#[".toList <+: begin_.after := prefix_of_reaches_parts mark
  have shape : line = margin ++ begin_.after := passes.after
  have filled : begin_.after.head?.all Text.isBlank = false := by
    obtain ⟨later, whole⟩ := opens
    rw [← whole]
    rfl
  rw [shape, Text.trimStart_append margin_blank filled]
  exact opens

/-- A line starts with a definition exactly if it defines a function and no attribute stands
before the definition. -/
theorem startsLine_iff_definesFunction {line : Line} :
    Rule.functionDefinition.regex.startsLine line = true ↔
      definesFunction line = true ∧ leadingAttributes.startsLine line = false := by
  have bare (none : leadingAttributes.startsLine line = false) :
      leadingAttributes.removeStart line = line := by
    rw [removeStart, Option.isSome_eq_false_iff.mp none |> Option.isNone_iff_eq_none.mp]
  constructor
  · intro starts
    have none : leadingAttributes.startsLine line = false := by
      refine Bool.not_eq_true _ |>.mp fun attributed => ?_
      obtain ⟨word, member, opens⟩ := Rule.exists_openingWord starts
      obtain ⟨later, whole⟩ := prefix_of_leadingAttributes attributed
      rw [← whole] at opens
      simp only [Rule.openingWords, List.mem_cons, List.not_mem_nil, or_false] at member
      rcases member with rfl | rfl | rfl | rfl | rfl <;> simp at opens
    rw [definesFunction, bare none]
    exact ⟨starts, none⟩
  · intro both
    have defines := both.1
    rwa [definesFunction, bare both.2] at defines

end Scan

namespace Fix

variable {lines : List Line} {index : Nat}

/-! ### The functions around a line -/

/-- The lines, counted from zero, that start a function around the line `index`; `isDefinition`
tells what counts as a definition. -/
def startsAround (isDefinition : Line → Bool) (lines : List Line) (index : Nat) : Set Nat :=
  {start | start ≤ index ∧ (lines[start]?).any isDefinition = true ∧
    (Rust.functionAt? lines start).any (·.covers index) = true}

/-- The functions around a line as the audit sees them: attributes may stand before a definition. -/
abbrev definitionsAround : List Line → Nat → Set Nat :=
  startsAround Scan.definesFunction

/-- The functions around a line that a fix can find. -/
abbrev bareDefinitionsAround : List Line → Nat → Set Nat :=
  startsAround Rule.functionDefinition.regex.startsLine

/-- What a fix can find are the definitions without attributes before them. -/
theorem mem_bareDefinitionsAround {start : Nat} :
    start ∈ bareDefinitionsAround lines index ↔
      start ∈ definitionsAround lines index ∧
        (lines[start]?).any Scan.leadingAttributes.startsLine = false := by
  simp only [startsAround, Set.mem_ofPred_eq]
  cases lines[start]? with
  | none => simp
  | some line =>
    simp only [Option.any_some, Scan.startsLine_iff_definesFunction]
    tauto

theorem firstLine_of_functionAt? {start : Nat} {function : Rust.FunctionSpan}
    (located : Rust.functionAt? lines start = some function) : function.firstLine = start + 1 := by
  rw [Rust.functionAt?] at located
  split at located
  · obtain ⟨name, _, rfl⟩ := Option.map_eq_some_iff.mp located
    rfl
  · cases located

theorem isSome_of_mem_startsAround {isDefinition : Line → Bool} {start : Nat}
    (around : start ∈ startsAround isDefinition lines index) :
    ∃ function, Rust.functionAt? lines start = some function := by
  obtain ⟨function, located, _⟩ := (Option.any_eq_true _ _).mp around.2.2
  exact ⟨function, located⟩

/-! ### The search from the line upwards -/

/-- One step of the search looks at one start. -/
theorem enclosingFrom_succ (start : Nat) (low : start ≤ index) :
    (start ∈ bareDefinitionsAround lines index ∧
        enclosingFrom lines index (start + 1) = Rust.functionAt? lines start) ∨
      (start ∉ bareDefinitionsAround lines index ∧
        enclosingFrom lines index (start + 1) = enclosingFrom lines index start) := by
  rw [enclosingFrom]
  by_cases bare : (lines[start]?).any Rule.functionDefinition.regex.startsLine = true
  · cases located : Rust.functionAt? lines start with
    | none =>
      refine Or.inr ⟨fun around => ?_, by simp⟩
      obtain ⟨function, found⟩ := isSome_of_mem_startsAround around
      rw [located] at found
      cases found
    | some function =>
      by_cases covers : function.covers index = true
      · exact Or.inl ⟨⟨low, bare, by simpa [located] using covers⟩,
          by simp [bare, Option.filter_some, covers]⟩
      · refine Or.inr ⟨fun around => covers ?_, by simp [Option.filter_some, covers]⟩
        simpa [located] using around.2.2
  · exact Or.inr ⟨fun around => bare around.2.1, by simp [bare]⟩

/-- The search gives the function of the last start below its bound, if there is any. -/
theorem enclosingFrom_cases (count : Nat) (low : count ≤ index + 1) :
    (∃ start < count, start ∈ bareDefinitionsAround lines index ∧
        (∀ other < count, other ∈ bareDefinitionsAround lines index → other ≤ start) ∧
        enclosingFrom lines index count = Rust.functionAt? lines start) ∨
      ((∀ start < count, start ∉ bareDefinitionsAround lines index) ∧
        enclosingFrom lines index count = none) := by
  induction count with
  | zero => exact Or.inr ⟨fun start below => absurd below (Nat.not_lt_zero start), rfl⟩
  | succ count inductionHypothesis =>
    rcases enclosingFrom_succ count (Nat.le_of_succ_le_succ low) with ⟨here, found⟩ | ⟨off, later⟩
    · exact Or.inl ⟨count, Nat.lt_succ_self count, here,
        fun other below _ => Nat.le_of_lt_succ below, found⟩
    · have below_of {start : Nat} (below : start < count + 1)
          (around : start ∈ bareDefinitionsAround lines index) : start < count := by
        refine Nat.lt_of_le_of_ne (Nat.le_of_lt_succ below) fun same => off ?_
        rwa [← same]
      rw [later]
      rcases inductionHypothesis (by omega) with ⟨start, below, around, last, found⟩ | ⟨no, found⟩
      · exact Or.inl ⟨start, by omega, around,
          fun other below around => last other (below_of below around) around, found⟩
      · exact Or.inr ⟨fun start below around => no start (below_of below around) around, found⟩

/-- A fix takes the last function that it can find around a line, and none if there is none. -/
theorem enclosingFunction?_cases (lines : List Line) (index : Nat) :
    (∃ start, IsGreatest (bareDefinitionsAround lines index) start ∧
        enclosingFunction? lines index = Rust.functionAt? lines start) ∨
      (bareDefinitionsAround lines index = ∅ ∧ enclosingFunction? lines index = none) := by
  have inside {start : Nat} (around : start ∈ bareDefinitionsAround lines index) :
      start < min (index + 1) lines.length := by
    obtain ⟨low, defined, _⟩ := around
    obtain ⟨line, stands, _⟩ := (Option.any_eq_true _ _).mp defined
    have short := (List.getElem?_eq_some_iff.mp stands).1
    omega
  rw [enclosingFunction?]
  rcases @enclosingFrom_cases lines index _ (Nat.min_le_left (index + 1) lines.length) with
    ⟨start, _, around, last, found⟩ | ⟨no, found⟩
  · exact Or.inl ⟨start, ⟨around, fun other around => last other (inside around) around⟩, found⟩
  · exact Or.inr ⟨Set.eq_empty_of_forall_notMem fun start around =>
      no start (inside around) around, found⟩

/-! ### The innermost function -/

/-- A fix finds the innermost function around a line as the audit sees it: the last one that
reaches the line, and none only if there is none. -/
structure FindsInnermost (lines : List Line) (index : Nat) : Prop where
  found : ∀ start, IsGreatest (definitionsAround lines index) start →
    enclosingFunction? lines index = Rust.functionAt? lines start
  missed : enclosingFunction? lines index = none ↔ definitionsAround lines index = ∅

/-- A fix finds the innermost function exactly if no attribute stands before it on its line. -/
theorem findsInnermost_iff (lines : List Line) (index : Nat) :
    FindsInnermost lines index ↔
      ∀ start, IsGreatest (definitionsAround lines index) start →
        (lines[start]?).any Scan.leadingAttributes.startsLine = false := by
  constructor
  · intro finds start greatest
    have same := finds.found start greatest
    obtain ⟨function, located⟩ := isSome_of_mem_startsAround greatest.1
    rcases enclosingFunction?_cases lines index with ⟨own, bare, found⟩ | ⟨_, found⟩
    · have equal : own = start := by
        have first := firstLine_of_functionAt? (found.symm.trans (same.trans located))
        have second := firstLine_of_functionAt? located
        omega
      rw [← equal]
      exact (mem_bareDefinitionsAround.mp bare.1).2
    · rw [found, located] at same
      cases same
  · intro plain
    have bare {start : Nat} (greatest : IsGreatest (definitionsAround lines index) start) :
        IsGreatest (bareDefinitionsAround lines index) start :=
      ⟨mem_bareDefinitionsAround.mpr ⟨greatest.1, plain start greatest⟩,
        fun other around => greatest.2 (mem_bareDefinitionsAround.mp around).1⟩
    have found (start : Nat) (greatest : IsGreatest (definitionsAround lines index) start) :
        enclosingFunction? lines index = Rust.functionAt? lines start := by
      rcases enclosingFunction?_cases lines index with ⟨own, last, found⟩ | ⟨empty, _⟩
      · rw [found, last.unique (bare greatest)]
      · have around := (bare greatest).1
        rw [empty] at around
        exact absurd around (Set.notMem_empty start)
    refine ⟨found, ?_⟩
    constructor
    · intro missed
      refine Set.not_nonempty_iff_eq_empty.mp fun some => ?_
      have bounded : BddAbove (definitionsAround lines index) := ⟨index, fun _ around => around.1⟩
      obtain ⟨start, greatest⟩ := bounded.exists_isGreatest_of_nonempty some
      obtain ⟨function, located⟩ := isSome_of_mem_startsAround greatest.1
      cases missed.symm.trans ((found start greatest).trans located)
    · intro none
      rcases enclosingFunction?_cases lines index with ⟨own, last, _⟩ | ⟨_, missed⟩
      · have around := (mem_bareDefinitionsAround.mp last.1).1
        rw [none] at around
        exact absurd around (Set.notMem_empty own)
      · exact missed

/-- A function inside another one, with an attribute before it on its line. -/
def attributedLines : List Line :=
  ["fn outer(a: Option<u8>) -> Option<u8> \x7b", "    #[inline] fn inner(a: Option<u8>) -> u8 \x7b",
    "        a.unwrap()", "    \x7d", "    Some(inner(a))", "\x7d"].map String.toList

/-- Its call is taken for one of the outer function, and rewritten as its type does not allow. -/
theorem not_findsInnermost_attributedLines :
    ¬ FindsInnermost attributedLines 2 ∧
      plan attributedLines ⟨.unwrapInProduction, "src/lib.rs", 3, "", .error⟩ =
        .replace "        a?".toList "Replaced 1 unwrap/expect call with ?" := by
  have inner : IsGreatest (definitionsAround attributedLines 2) 1 := by
    refine ⟨⟨by decide, by decide, by decide +kernel⟩, fun other around => ?_⟩
    refine Nat.le_of_lt_succ (Nat.lt_of_le_of_ne around.1 fun same => ?_)
    have defined := around.2.1
    rw [same] at defined
    exact absurd defined (by decide)
  refine ⟨fun finds => ?_, by decide +kernel⟩
  exact absurd (finds.found 1 inner) (by decide +kernel)

end Fix

end CrateAudit

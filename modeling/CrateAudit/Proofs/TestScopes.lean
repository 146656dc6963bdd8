/-
This file says which lines of a file count as tests. An attribute for tests opens a
scope at its item: either both stand on one line, or the attribute waits for the item
while nothing but blank lines, attributes and doc comments comes between. A line counts
as a test exactly if the item of some scope that is opened on it or above reaches down
to it. The two kinds of attributes, for functions and for modules, differ only in the
lines that play these parts.
-/

import CrateAudit.Scan.TestScope

namespace CrateAudit.Scan

/-! ### Attributes that wait for their item -/

/-- The parts that lines play for one kind of attribute. -/
structure Marker where
  /-- The line holds an attribute together with its item. -/
  standsAtItem : Line → Bool
  /-- The line holds an attribute whose item is still to come. -/
  announces : Line → Bool
  /-- The line is an item without an attribute of its own. -/
  isItem : Line → Bool
  /-- An attribute above waits on for its item. -/
  waitsOver : Line → Bool

namespace Marker

/-- An attribute above a line still waits for its item there. -/
def Waits (marker : Marker) (lines : List Line) (index : Nat) : Prop :=
  ∃ above < index, (∃ line, lines[above]? = some line ∧ marker.announces line = true) ∧
    ∀ between, above < between → between < index →
      ∃ line, lines[between]? = some line ∧ marker.waitsOver line = true

/-- A line opens a scope: it holds the item that an attribute was for. -/
def Opens (marker : Marker) (lines : List Line) (start : Nat) : Prop :=
  ∃ line, lines[start]? = some line ∧
    (marker.standsAtItem line = true ∨
      (marker.isItem line = true ∧ marker.Waits lines start))

/-- A line lies in a scope that is opened on it or above. -/
def Covers (marker : Marker) (lines : List Line) (index : Nat) : Prop :=
  ∃ start ≤ index, marker.Opens lines start ∧ index ≤ Rust.itemEnd lines start

/-- No attribute waits before the first line. -/
theorem not_waits_zero (marker : Marker) (lines : List Line) : ¬ marker.Waits lines 0 := by
  rintro ⟨above, before, _⟩
  exact Nat.not_lt_zero above before

/-- After a line an attribute waits that the line announces, or one that waits over it. -/
theorem waits_succ {marker : Marker} {lines : List Line} {index : Nat} {line : Line}
    (here : lines[index]? = some line) :
    marker.Waits lines (index + 1) ↔
      marker.announces line = true ∨
        (marker.waitsOver line = true ∧ marker.Waits lines index) := by
  constructor
  · rintro ⟨above, before, ⟨first, stands, announced⟩, covered⟩
    by_cases last : above = index
    · subst last
      rw [here] at stands
      cases stands
      exact Or.inl announced
    · obtain ⟨same, stands', waits⟩ := covered index (by omega) (by omega)
      rw [here] at stands'
      cases stands'
      exact Or.inr ⟨waits, above, by omega, ⟨first, stands, announced⟩,
        fun between low high => covered between low (by omega)⟩
  · rintro (announced | ⟨waits, above, before, first, covered⟩)
    · exact ⟨index, by omega, ⟨line, here, announced⟩, fun between low high => by omega⟩
    · refine ⟨above, by omega, first, fun between low high => ?_⟩
      by_cases last : between = index
      · subst last
        exact ⟨line, here, waits⟩
      · exact covered between low (by omega)

/-! ### What the scan keeps -/

/-- Before the line `index`, the lines before `limit` are the ones that the scopes opened so far
reach, and the switch says whether an attribute waits. -/
structure Tracks (marker : Marker) (lines : List Line) (index limit : Nat) (awaits : Bool) :
    Prop where
  reaches : ∀ place, place < limit ↔
    ∃ start < index, marker.Opens lines start ∧ place ≤ Rust.itemEnd lines start
  waits : awaits = true ↔ marker.Waits lines index

/-- Whether a line opens a scope, given whether an attribute waits. -/
def opensAt (marker : Marker) (awaits : Bool) (line : Line) : Bool :=
  marker.standsAtItem line || (awaits && marker.isItem line)

/-- Whether an attribute waits after a line. -/
def awaitsAfter (marker : Marker) (awaits : Bool) (line : Line) : Bool :=
  marker.announces line || (awaits && marker.waitsOver line)

theorem Tracks.start (marker : Marker) (lines : List Line) : marker.Tracks lines 0 0 false where
  reaches place := by
    constructor
    · exact fun before => absurd before (Nat.not_lt_zero place)
    · rintro ⟨start, before, _⟩
      exact absurd before (Nat.not_lt_zero start)
  waits := by
    constructor
    · exact fun impossible => absurd impossible Bool.false_ne_true
    · exact fun waits => absurd waits (not_waits_zero marker lines)

theorem Tracks.opens_iff {marker : Marker} {lines : List Line} {index limit : Nat}
    {awaits : Bool} {line : Line} (tracks : marker.Tracks lines index limit awaits)
    (here : lines[index]? = some line) :
    marker.opensAt awaits line = true ↔ marker.Opens lines index := by
  rw [opensAt, Bool.or_eq_true, Bool.and_eq_true, tracks.waits]
  constructor
  · intro opens
    exact ⟨line, here, opens.imp_right And.symm⟩
  · rintro ⟨same, stands, opens⟩
    rw [here] at stands
    cases stands
    exact opens.imp_right And.symm

/-- One line keeps what is tracked: the limit moves on to the end of the item that the line
opens, and never back. -/
theorem Tracks.step {marker : Marker} {lines : List Line} {index limit : Nat}
    {awaits : Bool} {line : Line} (tracks : marker.Tracks lines index limit awaits)
    (here : lines[index]? = some line) :
    marker.Tracks lines (index + 1)
      (if marker.opensAt awaits line then max limit (itemLimit lines index) else limit)
      (marker.awaitsAfter awaits line) where
  reaches place := by
    have earlier (start : Nat) : start < index + 1 ↔ start < index ∨ start = index := by omega
    by_cases opens : marker.opensAt awaits line = true
    · have inside : place < max limit (itemLimit lines index) ↔
          place < limit ∨ place ≤ Rust.itemEnd lines index := by
        rw [itemLimit]
        omega
      rw [if_pos opens, inside, tracks.reaches]
      constructor
      · rintro (⟨start, before, found⟩ | reached)
        · exact ⟨start, by omega, found⟩
        · exact ⟨index, by omega, (tracks.opens_iff here).mp opens, reached⟩
      · rintro ⟨start, before, found⟩
        rcases (earlier start).mp before with before | same
        · exact Or.inl ⟨start, before, found⟩
        · rw [same] at found
          exact Or.inr found.2
    · rw [if_neg opens, tracks.reaches]
      constructor
      · rintro ⟨start, before, found⟩
        exact ⟨start, by omega, found⟩
      · rintro ⟨start, before, found⟩
        rcases (earlier start).mp before with before | same
        · exact ⟨start, before, found⟩
        · rw [same] at found
          exact absurd ((tracks.opens_iff here).mpr found.1) opens
  waits := by
    rw [waits_succ here, awaitsAfter, Bool.or_eq_true, Bool.and_eq_true, tracks.waits,
      and_comm]

end Marker

/-! ### Functions and modules -/

/-- Whether a line holds an attribute that makes a function a test, in code or not. -/
def marksFunction (line : Line) : Bool :=
  testAttributes.any (Text.includes · (Text.trim line))

/-- Whether a line holds the attribute that compiles for tests only, in code or not. -/
def marksModule (line : Line) : Bool :=
  Text.includes testOnlyAttribute (Text.trim line)

/-- Attributes that make a function a test. -/
def functionMarker : Marker where
  standsAtItem line := marksFunction line && definesFunction line
  announces line := marksFunction line && !definesFunction line
  isItem line := !marksFunction line && Rule.functionDefinition.regex.startsLine line
  waitsOver line := !marksFunction line && !Rule.functionDefinition.regex.startsLine line &&
    keepsWaiting (Text.trim line)

/-- The attribute that compiles a module for tests only. Where it stands with a module on one
line, one above it waits on. -/
def moduleMarker : Marker where
  standsAtItem line := marksModule line && Text.includes "mod ".toList (Text.trim line)
  announces line := marksModule line && !Text.includes "mod ".toList (Text.trim line)
  isItem line := !marksModule line && moduleStart.startsLine line
  waitsOver line :=
    if marksModule line then Text.includes "mod ".toList (Text.trim line)
    else !moduleStart.startsLine line && keepsWaiting (Text.trim line)

/-- Whether a line belongs to a test function or to a module for tests. -/
def IsInTest (lines : List Line) (index : Nat) : Prop :=
  functionMarker.Covers lines index ∨ moduleMarker.Covers lines index

namespace TestScope

/-- What the scan keeps about functions changes as their attributes ask. -/
theorem stepFunction_eq (scope : TestScope) (lines : List Line) (index : Nat) (line : Line) :
    scope.stepFunction lines index line =
      { scope with
        functionLimit := if functionMarker.opensAt scope.awaitsFunction line then
          max scope.functionLimit (itemLimit lines index) else scope.functionLimit
        awaitsFunction := functionMarker.awaitsAfter scope.awaitsFunction line } := by
  obtain ⟨functionLimit, moduleLimit, awaitsFunction, awaitsModule⟩ := scope
  have marks : testAttributes.any (Text.includes · (Text.trim line)) = marksFunction line := rfl
  cases marked : marksFunction line <;> cases defines : definesFunction line <;>
    cases awaitsFunction <;>
    cases starts : Rule.functionDefinition.regex.startsLine line <;>
    cases keeps : keepsWaiting (Text.trim line) <;>
    simp [stepFunction, Marker.opensAt, Marker.awaitsAfter, functionMarker, marks, marked,
      defines, starts, keeps]

/-- What the scan keeps about modules changes as their attribute asks. -/
theorem stepModule_eq (scope : TestScope) (lines : List Line) (index : Nat) (line : Line) :
    scope.stepModule lines index line =
      { scope with
        moduleLimit := if moduleMarker.opensAt scope.awaitsModule line then
          max scope.moduleLimit (itemLimit lines index) else scope.moduleLimit
        awaitsModule := moduleMarker.awaitsAfter scope.awaitsModule line } := by
  obtain ⟨functionLimit, moduleLimit, awaitsFunction, awaitsModule⟩ := scope
  have marks : Text.includes testOnlyAttribute (Text.trim line) = marksModule line := rfl
  cases marked : marksModule line <;>
    cases holds : Text.includes "mod ".toList (Text.trim line) <;> cases awaitsModule <;>
    cases starts : moduleStart.startsLine line <;>
    cases keeps : keepsWaiting (Text.trim line) <;>
    simp [-String.reduceToList, stepModule, Marker.opensAt, Marker.awaitsAfter, moduleMarker,
      marks, marked, holds, starts, keeps]

/-- Before a line, a scope knows what the lines above have opened and left waiting. -/
structure Knows (scope : TestScope) (lines : List Line) (index : Nat) : Prop where
  functions : functionMarker.Tracks lines index scope.functionLimit scope.awaitsFunction
  modules : moduleMarker.Tracks lines index scope.moduleLimit scope.awaitsModule

theorem Knows.start (lines : List Line) : start.Knows lines 0 :=
  ⟨.start _ _, .start _ _⟩

theorem Knows.step {scope : TestScope} {lines : List Line} {index : Nat} {line : Line}
    (knows : scope.Knows lines index) (here : lines[index]? = some line) :
    (scope.step lines index line).Knows lines (index + 1) := by
  rw [TestScope.step, stepModule_eq, stepFunction_eq]
  exact ⟨knows.functions.step here, knows.modules.step here⟩

/-- After a line has been looked at, its scope holds it exactly if it belongs to a test. -/
theorem Knows.contains_iff {scope : TestScope} {lines : List Line} {index : Nat}
    (knows : scope.Knows lines (index + 1)) :
    scope.contains index = true ↔ IsInTest lines index := by
  rw [contains, Bool.or_eq_true, decide_eq_true_eq, decide_eq_true_eq, knows.functions.reaches,
    knows.modules.reaches]
  simp only [IsInTest, Marker.Covers, Nat.lt_succ_iff]

end TestScope

/-! ### The scope line by line -/

/-- The scope of a file after its first lines. -/
def scopeAfter (lines : List Line) (count : Nat) : TestScope :=
  (lines.take count).zipIdx.foldl (fun scope place => scope.step lines place.2 place.1) .start

variable {lines : List Line} {line : Line} {index : Nat}

theorem scopeAfter_zero (lines : List Line) : scopeAfter lines 0 = .start := rfl

theorem scopeAfter_succ (here : lines[index]? = some line) :
    scopeAfter lines (index + 1) = (scopeAfter lines index).step lines index line := by
  obtain ⟨inside, rfl⟩ := List.getElem?_eq_some_iff.mp here
  rw [scopeAfter, List.take_succ_eq_append_getElem inside, List.zipIdx_append, List.foldl_append,
    List.length_take_of_le (Nat.le_of_lt inside), Nat.zero_add]
  rfl

theorem knows_scopeAfter {count : Nat} (within : count ≤ lines.length) :
    (scopeAfter lines count).Knows lines count := by
  induction count with
  | zero => exact .start lines
  | succ count inductionHypothesis =>
    have here : lines[count]? = some lines[count] := List.getElem?_eq_getElem within
    rw [scopeAfter_succ here]
    exact (inductionHypothesis (Nat.le_of_succ_le within)).step here

end CrateAudit.Scan

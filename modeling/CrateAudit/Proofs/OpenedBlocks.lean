/-
This file says which lines open a block of tests, looking at the lines only. A line with
an attribute opens one if it holds the item as well. A line without one opens it if it
starts the item and the nearest line above it that is neither blank nor an attribute nor
a doc comment, or that holds the attribute for tests, announces the item. The scope that
is kept line by line is the union of the blocks that are opened so.
-/

import CrateAudit.Proofs.Enclosing
import CrateAudit.Proofs.TestScopes

namespace CrateAudit

theorem Text.head?_trim {line rest : Line} {first : Char}
    (starts : trimStart line = first :: rest) : (trim line).head? = some first := by
  have filled : ¬ isBlank first = true := by
    have head := List.head?_dropWhile_not isBlank line
    rw [show line.dropWhile isBlank = first :: rest from starts] at head
    simpa using head
  rw [trim, starts, trimEnd, List.reverse_cons, List.head?_reverse, List.dropWhile_append]
  split
  · rw [List.dropWhile_cons_of_neg filled]
    rfl
  · exact List.getLast?_concat

namespace Scan

/-! ### Which lines open a block -/

/-- The nearest line above another one over which no attribute waits. -/
def nearestAbove? (passesOver : Line → Bool) (lines : List Line) (index : Nat) : Option Line :=
  (lines.take index).reverse.find? (!passesOver ·)

/-- Whether an attribute for a test function may stand above a line and be meant for one below:
the line holds none itself and is blank, an attribute or a doc comment. -/
def passesFunction (line : Line) : Bool :=
  !marksFunction line && keepsWaiting (Text.trim line)

/-- The same for a module for tests; its attribute also waits over a line that holds one together
with its module. -/
def passesModule (line : Line) : Bool :=
  if marksModule line then Text.includes "mod ".toList (Text.trim line)
  else keepsWaiting (Text.trim line)

/-- Whether a line opens a test function: it holds an attribute and the function, or it is the
function that an attribute above is for. -/
def opensTestFunction (lines : List Line) (start : Nat) : Bool :=
  (lines[start]?).any fun line =>
    if marksFunction line then definesFunction line
    else Rule.functionDefinition.regex.startsLine line &&
      (nearestAbove? passesFunction lines start).any fun above =>
        marksFunction above && !definesFunction above

/-- Whether a line opens a module for tests. -/
def opensTestModule (lines : List Line) (start : Nat) : Bool :=
  (lines[start]?).any fun line =>
    if marksModule line then Text.includes "mod ".toList (Text.trim line)
    else moduleStart.startsLine line &&
      (nearestAbove? passesModule lines start).any marksModule

/-! ### Items and what may stand above them -/

/-- An attribute does not wait over a line that begins with a word. -/
theorem keepsWaiting_of_prefix {line : Line} {word : String} {first : Char} {letters : Line}
    (spelled : word.toList = first :: letters) (noHash : first ≠ '#') (noSlash : first ≠ '/')
    (opens : word.toList <+: Text.trimStart line) : keepsWaiting (Text.trim line) = false := by
  obtain ⟨later, whole⟩ := opens
  rw [spelled] at whole
  have head := Text.head?_trim whole.symm
  obtain ⟨rest, shape⟩ := List.head?_eq_some_iff.mp head
  simp [keepsWaiting, shape, List.isPrefixOf, Ne.symm noHash, Ne.symm noSlash]

theorem keepsWaiting_of_functionDefinition {line : Line}
    (starts : Rule.functionDefinition.regex.startsLine line = true) :
    keepsWaiting (Text.trim line) = false := by
  obtain ⟨word, member, opens⟩ := Rule.exists_openingWord starts
  simp only [Rule.openingWords, List.mem_cons, List.not_mem_nil, or_false] at member
  rcases member with rfl | rfl | rfl | rfl | rfl <;>
    exact keepsWaiting_of_prefix rfl (by decide) (by decide) opens

theorem moduleStart_eq : moduleStart =
    Regex.inOrder (.anchor .start :: Regex.many Regex.blank ::
      (([(1, "pub", [Regex.perhaps (.group 2 (Regex.inOrder ([Regex.exactly '('] ++
          [Regex.many (Regex.noneOf [')'])] ++ [Regex.exactly ')']))),
          Regex.atLeastOne Regex.blank])].map fun part =>
        Regex.perhaps (.group part.1 (Regex.inOrder (Regex.parts part.2.1 ++ part.2.2)))) ++
        (Regex.parts "mod" ++ [Regex.atLeastOne Regex.blank,
          Regex.atLeastOne Regex.wordCharacter]))) := by
  simp only [moduleStart, Rule.visibility, List.append_assoc, List.map_cons, List.map_nil,
    List.cons_append, List.nil_append]

theorem keepsWaiting_of_moduleStart {line : Line} (starts : moduleStart.startsLine line = true) :
    keepsWaiting (Text.trim line) = false := by
  rw [moduleStart_eq] at starts
  obtain ⟨word, member, opens⟩ := Regex.exists_word_of_startsLine (by decide) starts
  simp only [List.map_cons, List.map_nil, List.cons_append, List.nil_append, List.mem_cons,
    List.not_mem_nil, or_false] at member
  rcases member with rfl | rfl <;>
    exact keepsWaiting_of_prefix rfl (by decide) (by decide) opens

/-- Lines over which an attribute waits are no items, so it need not be asked whether they are. -/
theorem waitsOver_functionMarker : functionMarker.waitsOver = passesFunction := by
  funext line
  rw [passesFunction, functionMarker]
  cases starts : Rule.functionDefinition.regex.startsLine line with
  | false => simp [starts]
  | true => simp [keepsWaiting_of_functionDefinition starts]

theorem waitsOver_moduleMarker : moduleMarker.waitsOver = passesModule := by
  funext line
  rw [passesModule, moduleMarker]
  cases starts : moduleStart.startsLine line with
  | false => simp [starts]
  | true => simp [keepsWaiting_of_moduleStart starts]

/-! ### The nearest line above -/

variable {lines : List Line} {line : Line} {index : Nat}

theorem nearestAbove?_succ (passesOver : Line → Bool) (here : lines[index]? = some line) :
    nearestAbove? passesOver lines (index + 1) =
      if passesOver line then nearestAbove? passesOver lines index else some line := by
  obtain ⟨inside, rfl⟩ := List.getElem?_eq_some_iff.mp here
  rw [nearestAbove?, List.take_succ_eq_append_getElem inside, List.reverse_append,
    List.reverse_singleton, List.singleton_append, List.find?_cons, nearestAbove?]
  cases passesOver lines[index] <;> rfl

/-- An attribute waits at a line exactly if the nearest line above that it does not wait over
announces its item. -/
theorem Marker.waits_iff {marker : Marker}
    (stops : ∀ line, marker.announces line = true → marker.waitsOver line = false)
    (within : index ≤ lines.length) :
    marker.Waits lines index ↔
      (nearestAbove? marker.waitsOver lines index).any marker.announces = true := by
  induction index with
  | zero => exact iff_of_false (marker.not_waits_zero lines) Bool.false_ne_true
  | succ index inductionHypothesis =>
    have here : lines[index]? = some lines[index] := List.getElem?_eq_getElem within
    rw [Marker.waits_succ here, nearestAbove?_succ _ here,
      inductionHypothesis (Nat.le_of_succ_le within)]
    have stops_here := stops lines[index]
    cases waits : marker.waitsOver lines[index] with
    | false => simp
    | true =>
      rw [waits] at stops_here
      simp [show marker.announces lines[index] = false by simpa using stops_here]

/-- A line opens a scope if it holds an attribute and its item, or an item that the nearest line
above announces. -/
theorem Marker.opens_iff_any {marker : Marker}
    (stops : ∀ line, marker.announces line = true → marker.waitsOver line = false) :
    marker.Opens lines index ↔
      (lines[index]?).any (fun line => marker.standsAtItem line || (marker.isItem line &&
        (nearestAbove? marker.waitsOver lines index).any marker.announces)) = true := by
  rw [Marker.Opens]
  cases here : lines[index]? with
  | none => simp
  | some line =>
    have waits := waits_iff stops (Nat.le_of_lt (List.getElem?_eq_some_iff.mp here).1)
    simp only [Option.some.injEq, exists_eq_left', Option.any_some, waits, Bool.or_eq_true,
      Bool.and_eq_true]

/-- Which lines open a test function can be told from the lines above. -/
theorem opens_functionMarker : functionMarker.Opens lines index ↔
    opensTestFunction lines index = true := by
  have stops (line : Line) (announced : functionMarker.announces line = true) :
      functionMarker.waitsOver line = false := by
    rw [functionMarker, Bool.and_eq_true] at announced
    rw [waitsOver_functionMarker, passesFunction, announced.1]
    rfl
  rw [Marker.opens_iff_any stops, waitsOver_functionMarker, opensTestFunction]
  congr! 3 with line
  cases marked : marksFunction line <;> simp [functionMarker, marked]

/-- Where the nearest line above holds the attribute for modules, it announces its module: with the
module on it, it would be passed over. -/
theorem any_announces_moduleMarker (lines : List Line) (index : Nat) :
    (nearestAbove? passesModule lines index).any moduleMarker.announces =
      (nearestAbove? passesModule lines index).any marksModule := by
  cases nearest : nearestAbove? passesModule lines index with
  | none => rfl
  | some above =>
    have stops : passesModule above = false := by simpa using List.find?_some nearest
    change (marksModule above && !Text.includes "mod ".toList (Text.trim above)) =
      marksModule above
    cases marked : marksModule above with
    | false => rfl
    | true =>
      rw [passesModule, if_pos marked] at stops
      rw [stops]
      rfl

/-- Which lines open a module for tests can be told from the lines above. -/
theorem opens_moduleMarker : moduleMarker.Opens lines index ↔
    opensTestModule lines index = true := by
  have stops (line : Line) (announced : moduleMarker.announces line = true) :
      moduleMarker.waitsOver line = false := by
    rw [moduleMarker, Bool.and_eq_true, Bool.not_eq_true'] at announced
    rw [waitsOver_moduleMarker, passesModule, if_pos announced.1, announced.2]
  rw [Marker.opens_iff_any stops, waitsOver_moduleMarker, any_announces_moduleMarker,
    opensTestModule]
  congr! 3 with line
  cases marked : marksModule line <;> simp [moduleMarker, marked]

/-! ### The scope as a union -/

/-- A line moves the limits of the scope exactly if it opens a block, and never back. -/
theorem limits_scopeAfter_succ (inside : index < lines.length) :
    (scopeAfter lines (index + 1)).functionLimit =
        (if opensTestFunction lines index then
          max (scopeAfter lines index).functionLimit (itemLimit lines index)
        else (scopeAfter lines index).functionLimit) ∧
      (scopeAfter lines (index + 1)).moduleLimit =
        (if opensTestModule lines index then
          max (scopeAfter lines index).moduleLimit (itemLimit lines index)
        else (scopeAfter lines index).moduleLimit) := by
  have here : lines[index]? = some lines[index] := List.getElem?_eq_getElem inside
  have knows := knows_scopeAfter (Nat.le_of_lt inside)
  have functions := (knows.functions.opens_iff here).trans opens_functionMarker
  have modules := (knows.modules.opens_iff here).trans opens_moduleMarker
  rw [scopeAfter_succ here, TestScope.step, TestScope.stepModule_eq, TestScope.stepFunction_eq,
    ← Bool.eq_iff_iff.mpr functions, ← Bool.eq_iff_iff.mpr modules]
  exact ⟨rfl, rfl⟩

/-- The scope after a line holds the lines that a block reaches which is opened there or above. -/
theorem contains_scopeAfter_iff (inside : index < lines.length) (place : Nat) :
    (scopeAfter lines (index + 1)).contains place = true ↔
      ∃ start ≤ index, (opensTestFunction lines start || opensTestModule lines start) = true ∧
        place ≤ Rust.itemEnd lines start := by
  have knows := knows_scopeAfter inside
  rw [TestScope.contains, Bool.or_eq_true, decide_eq_true_eq, decide_eq_true_eq,
    knows.functions.reaches, knows.modules.reaches]
  simp only [opens_functionMarker, opens_moduleMarker, Nat.lt_succ_iff, Bool.or_eq_true,
    or_and_right, and_or_left, exists_or]

/-- The scope is the union of the blocks opened so far: a line moves a limit to the end of its own
block if it opens one, and the lines in the scope are those that one of these blocks reaches. -/
theorem scope_is_union_of_opened_blocks (inside : index < lines.length) :
    (scopeAfter lines (index + 1)).functionLimit =
        (if opensTestFunction lines index then
          max (scopeAfter lines index).functionLimit (itemLimit lines index)
        else (scopeAfter lines index).functionLimit) ∧
      (scopeAfter lines (index + 1)).moduleLimit =
        (if opensTestModule lines index then
          max (scopeAfter lines index).moduleLimit (itemLimit lines index)
        else (scopeAfter lines index).moduleLimit) ∧
      ∀ place, (scopeAfter lines (index + 1)).contains place = true ↔
        ∃ start ≤ index, (opensTestFunction lines start || opensTestModule lines start) = true ∧
          place ≤ Rust.itemEnd lines start :=
  ⟨(limits_scopeAfter_succ inside).1, (limits_scopeAfter_succ inside).2,
    contains_scopeAfter_iff inside⟩

/-- A test function on one line within another one that goes on below it. -/
def nestedTests : List Line :=
  ["#[test]", "/// Both are tests.", "fn outer() \x7b", "  #[test] fn inner() \x7b\x7d",
    "  inner();", "\x7d"].map String.toList

theorem scope_is_union_of_opened_blocks_nestedTests :
    4 < nestedTests.length ∧ opensTestFunction nestedTests 2 = true ∧
      opensTestFunction nestedTests 3 = true ∧ Rust.itemEnd nestedTests 3 = 3 ∧
      (scopeAfter nestedTests 5).contains 4 = true :=
  have inside : 4 < nestedTests.length := by decide
  ⟨inside, by decide, by decide, by decide +kernel,
    ((scope_is_union_of_opened_blocks inside).2.2 4).mpr
      ⟨2, by decide, by decide, by decide +kernel⟩⟩

end Scan

end CrateAudit

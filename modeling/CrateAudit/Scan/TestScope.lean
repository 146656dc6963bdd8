/-
This file tracks which lines of a file belong to tests: the functions with a test
attribute and the modules that are compiled for tests only. A scope once opened is
never shortened by one that opens inside it.
-/

import CrateAudit.Rule
import CrateAudit.Rust.FunctionSpan

namespace CrateAudit.Scan

open Regex (inOrder exactly parts many atLeastOne blank wordCharacter noneOf perhaps)

/-- The lines that belong to tests, as far as they are known: those before `functionLimit` and
those before `moduleLimit`. Each switch says that an attribute is waiting for its item. -/
structure TestScope where
  functionLimit : Nat
  moduleLimit : Nat
  awaitsFunction : Bool
  awaitsModule : Bool
  deriving DecidableEq, Repr

namespace TestScope

/-- Before the first line. -/
def start : TestScope := ⟨0, 0, false, false⟩

/-- Whether the line with an index belongs to a test. -/
def contains (scope : TestScope) (index : Nat) : Bool :=
  index < scope.functionLimit || index < scope.moduleLimit

end TestScope

/-- The attributes that make a function a test. -/
def testAttributes : List Line :=
  ["#[test]", "#[tokio::test]", "#[bench]"].map String.toList

/-- The attribute that compiles an item for tests only. -/
def testOnlyAttribute : Line := "#[cfg(test)]".toList

/-- The start of a line that opens a module. -/
def moduleStart : Regex :=
  inOrder <|
    [.anchor .start, many blank,
      perhaps (.group 1 (inOrder (Rule.visibility ++ [atLeastOne blank])))] ++
    parts "mod" ++ [atLeastOne blank, atLeastOne wordCharacter]

/-- The attributes at the start of a line. -/
def leadingAttributes : Regex :=
  inOrder
    [.anchor .start, many blank,
      atLeastOne (.group 1 (inOrder <|
        parts "#[" ++ [many (noneOf [']']), exactly ']', many blank]))]

/-- Whether a line defines a function, whatever attributes stand before it. -/
def definesFunction (line : Line) : Bool :=
  Rule.functionDefinition.regex.startsLine (leadingAttributes.removeStart line)

/-- Whether a line, without its outer blanks, lets an attribute above it wait on: it is empty, an
attribute or a doc comment. -/
def keepsWaiting (trimmed : Line) : Bool :=
  trimmed.isEmpty || "#".toList.isPrefixOf trimmed || "///".toList.isPrefixOf trimmed

/-- The limit of the scope that the item at a line opens. -/
def itemLimit (lines : List Line) (index : Nat) : Nat :=
  Rust.itemEnd lines index + 1

/-- The effect of a line on the modules. -/
def TestScope.stepModule (scope : TestScope) (lines : List Line) (index : Nat) (line : Line) :
    TestScope :=
  let trimmed := Text.trim line
  if Text.includes testOnlyAttribute trimmed then
    if Text.includes "mod ".toList trimmed then
      { scope with moduleLimit := max scope.moduleLimit (itemLimit lines index) }
    else { scope with awaitsModule := true }
  else if scope.awaitsModule && moduleStart.startsLine line then
    { scope with
      moduleLimit := max scope.moduleLimit (itemLimit lines index)
      awaitsModule := false }
  else if keepsWaiting trimmed then scope
  else { scope with awaitsModule := false }

/-- The effect of a line on the functions. -/
def TestScope.stepFunction (scope : TestScope) (lines : List Line) (index : Nat) (line : Line) :
    TestScope :=
  let trimmed := Text.trim line
  let opened : TestScope :=
    { scope with
      functionLimit := max scope.functionLimit (itemLimit lines index)
      awaitsFunction := false }
  if testAttributes.any (Text.includes · trimmed) then
    if definesFunction line then opened else { scope with awaitsFunction := true }
  else if scope.awaitsFunction && Rule.functionDefinition.regex.startsLine line then opened
  else if keepsWaiting trimmed then scope
  else { scope with awaitsFunction := false }

/-- The scope after a line. -/
def TestScope.step (scope : TestScope) (lines : List Line) (index : Nat) (line : Line) :
    TestScope :=
  (scope.stepModule lines index line).stepFunction lines index line

end CrateAudit.Scan

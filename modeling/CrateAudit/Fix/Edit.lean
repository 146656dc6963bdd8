/-
This file plans the edits of a whole file, at most one a line, and applies edits to
its text. The text keeps its line break: the two-character one if it occurs at all,
the line feed otherwise.
-/

import CrateAudit.Fix.Plan
import CrateAudit.Source

namespace CrateAudit.Fix

/-- The edit of one line: a new text, or its removal. -/
structure Edit where
  file : String
  line : Int
  kind : Kind
  before : Line
  replacement : Option Line
  description : String
  deriving DecidableEq, Repr

/-- A violation that is left alone, and why. -/
structure Skipped where
  violation : Violation
  reason : String
  deriving DecidableEq, Repr

/-- The edits and the skipped violations of a file. -/
structure FilePlan where
  edits : List Edit
  skipped : List Skipped
  deriving DecidableEq, Repr

namespace FilePlan

def withEdit (edit : Edit) (rest : FilePlan) : FilePlan :=
  { rest with edits := edit :: rest.edits }

def withSkipped (violation : Violation) (reason : SkipReason) (rest : FilePlan) : FilePlan :=
  { rest with skipped := ⟨violation, reason.message⟩ :: rest.skipped }

end FilePlan

/-- Plans the violations of a file in the order given. `seen` holds the lines and kinds that have
been planned, `edited` the lines that an edit has taken. -/
def planFileAfter (source : Source) (seen : List (Int × Kind)) (edited : List Int) :
    List Violation → FilePlan
  | [] => ⟨[], []⟩
  | violation :: rest =>
    let key := (violation.line, violation.kind)
    if seen.contains key then planFileAfter source seen edited rest
    else if edited.contains violation.line then
      (planFileAfter source (key :: seen) edited rest).withSkipped violation .lineShared
    else
      let edit (replacement : Option Line) (description : String) : Edit :=
        { file := source.path
          line := violation.line
          kind := violation.kind
          before := (source.lines[(violation.line - 1).toNat]?).getD []
          replacement
          description }
      match plan source.lines violation with
      | .skip reason =>
        (planFileAfter source (key :: seen) edited rest).withSkipped violation reason
      | .replace replacement description =>
        (planFileAfter source (key :: seen) (violation.line :: edited) rest).withEdit
          (edit (some replacement) description)
      | .remove description =>
        (planFileAfter source (key :: seen) (violation.line :: edited) rest).withEdit
          (edit none description)

/-- Plans the violations of a file. -/
def planFile (source : Source) (violations : List Violation) : FilePlan :=
  planFileAfter source [] [] violations

/-! ### Applying edits -/

/-- The index that a line number stands for; numbers below one count from the end. -/
def lineIndex? (count : Nat) (line : Int) : Option Nat :=
  let index := if 1 ≤ line then line - 1 else line - 1 + count
  if 0 ≤ index ∧ index < count then some index.toNat else none

/-- Applies one edit; there is no result for a line that does not exist. -/
def applyEdit? (lines : List Line) (edit : Edit) : Option (List Line) :=
  (lineIndex? lines.length edit.line).map fun index =>
    match edit.replacement with
    | none => lines.eraseIdx index
    | some replacement => lines.set index replacement

/-- The edits from the bottom of the file to its top, so that line numbers stay right. -/
def bottomUp (edits : List Edit) : List Edit :=
  edits.mergeSort fun first second => second.line ≤ first.line

/-- The line break of a text. -/
def lineBreak (content : List Char) : List Char :=
  if Text.includes ['\r', '\n'] content then ['\r', '\n'] else ['\n']

/-- The text of lines, ended by a line break if the text they come from was. -/
def joinLines (content : List Char) (lines : List Line) : List Char :=
  let joined := (lineBreak content).intercalate lines
  if !lines.isEmpty && content.getLast? = some '\n' then joined ++ lineBreak content else joined

/-- The text of a file after some edits. -/
def applyEdits? (source : Source) (edits : List Edit) : Option (List Char) :=
  ((bottomUp edits).foldlM applyEdit? source.lines).map (joinLines source.content)

end CrateAudit.Fix

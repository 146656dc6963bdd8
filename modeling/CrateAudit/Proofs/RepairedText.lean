/-
This file says what the text of a repaired file is: its lines after the edits, joined
by line feeds. Written and read again it is the same text, cut into the same lines but
for an empty last one without a terminator.
-/

import CrateAudit.Proofs.Planning
import CrateAudit.Proofs.Utf8
import CrateAudit.Project.Fixing

namespace CrateAudit.Project

variable {path : String} {content : List Char} {violations : List Violation}

/-- The text of a file that was read with line feeds only. -/
theorem repairedText_eq (path : String) (feeds : '\r' ∉ content) :
    repairedText (.ofText path content)
        (Fix.planFile (.ofText path content) violations).edits =
      Text.rejoin (content.getLast? == some '\n')
        (Fix.editedLines (Fix.planFile (.ofText path content) violations).edits
          (Text.lines content)) := by
  rw [repairedText, Fix.applyEdits?_planFile, Option.getD_some]
  exact Fix.joinLines_eq_rejoin feeds _

/-- No line that edits leave has a line break in it. -/
theorem isPlain_of_mem_editedLines {line : Line}
    (member : line ∈ Fix.editedLines (Fix.planFile (.ofText path content) violations).edits
      (Text.lines content)) : Text.IsPlain line := by
  obtain ⟨index, own, stands, ⟨_, rfl⟩ | ⟨edit, text, found, replaced, rfl⟩⟩ :=
    Fix.mem_editedFrom_iff.mp member
  · exact Text.isPlain_of_mem_lines line (List.mem_of_getElem? stands)
  · exact Fix.isPlain_replacement (List.mem_of_find?_eq_some found) replaced

theorem lines_repairedText (path : String) (feeds : '\r' ∉ content) :
    Text.lines (repairedText (.ofText path content)
        (Fix.planFile (.ofText path content) violations).edits) =
      Text.withoutOpenEnd (content.getLast? == some '\n')
        (Fix.editedLines (Fix.planFile (.ofText path content) violations).edits
          (Text.lines content)) := by
  rw [repairedText_eq path feeds]
  exact Text.lines_rejoin _ fun _ => isPlain_of_mem_editedLines

/-- What is written is read again. -/
theorem read_repairedText (path : String) (violations : List Violation) (feeds : '\r' ∉ content) :
    Text.unifyLineFeeds (Text.decode (Text.encode (repairedText (.ofText path content)
        (Fix.planFile (.ofText path content) violations).edits))) =
      repairedText (.ofText path content)
        (Fix.planFile (.ofText path content) violations).edits := by
  rw [Text.decode_encode, repairedText_eq path feeds]
  exact Text.unifyLineFeeds_of_not_mem
    (Text.return_not_mem_rejoin _ fun _ => isPlain_of_mem_editedLines)

end CrateAudit.Project

/-
This file says that what stands between a doc comment and its item does not matter if it
is made of blank lines and attributes. The search goes upwards and passes over a blank line
and a line that starts like an attribute. Of an attribute of several lines it meets the
last line first: from there on the brackets that are still to be opened keep it going, up
to the first line of the attribute and not beyond.
-/

import CrateAudit.Proofs.TrimmedCode
import CrateAudit.Scan.RustFile
import Mathlib.Algebra.Ring.Int.Defs
import Mathlib.Data.List.Infix

namespace CrateAudit.Scan

variable {line : Line} {lines inserted : List Line}

/-! ### What may stand between a doc comment and its item -/

/-- Whether a line starts with a text, blanks aside. -/
def StartsWith (text : String) (line : Line) : Prop :=
  text.toList <+: Text.trim line

instance (text : String) : DecidablePred (StartsWith text) := fun _ =>
  inferInstanceAs (Decidable (_ <+: _))

/-- Whether the code of a line ends with a closing bracket, blanks aside. -/
def EndsWithBracket (line : Line) : Prop :=
  (Text.trimEnd (Rust.codeOnly line)).getLast? = some ']'

instance : DecidablePred EndsWithBracket := fun _ =>
  inferInstanceAs (Decidable (_ = _))

/-- How many more brackets and parentheses the code of some lines closes than it opens. -/
def balanceOf (lines : List Line) : Int :=
  (lines.map fun line => closingBalance (Rust.codeOnly line)).sum

/-- An attribute of several lines: its brackets match, whatever is left of it from a later line on
closes more than it opens, the code of its last line ends with a bracket, and only its first line
starts like an attribute. -/
structure IsAttributeBlock (lines : List Line) : Prop where
  several : 2 ≤ lines.length
  balanced : balanceOf lines = 0
  closing : ∀ rest, rest <:+ lines → rest ≠ [] → rest ≠ lines → 0 < balanceOf rest
  ends : ∀ last, lines.getLast? = some last → EndsWithBracket last
  starts : ∀ line, lines.head? = some line → StartsWith "#[" line
  once : ∀ line ∈ lines.tail, ¬ StartsWith "#[" line

instance : DecidablePred IsAttributeBlock := fun lines =>
  decidable_of_iff
    (2 ≤ lines.length ∧ balanceOf lines = 0 ∧
      (∀ rest ∈ lines.tails, rest ≠ [] → rest ≠ lines → 0 < balanceOf rest) ∧
      (∀ last ∈ lines.getLast?, EndsWithBracket last) ∧
      (∀ line ∈ lines.head?, StartsWith "#[" line) ∧ ∀ line ∈ lines.tail, ¬ StartsWith "#[" line)
    ⟨fun ⟨several, balanced, closing, ends, starts, once⟩ =>
        ⟨several, balanced, fun rest isSuffix => closing rest ((List.mem_tails _ _).mpr isSuffix),
          ends, starts, once⟩,
      fun ⟨several, balanced, closing, ends, starts, once⟩ =>
        ⟨several, balanced, fun rest member => closing rest ((List.mem_tails _ _).mp member), ends,
          starts, once⟩⟩

/-- Blank lines, attributes of one line and attributes of several lines, in any order. -/
inductive IsInterlude : List Line → Prop where
  | nil : IsInterlude []
  | blank (line : Line) (rest : List Line) (empty : Text.trim line = [])
      (later : IsInterlude rest) : IsInterlude (line :: rest)
  | single (line : Line) (rest : List Line) (starts : StartsWith "#[" line)
      (later : IsInterlude rest) : IsInterlude (line :: rest)
  | block (lines rest : List Line) (isBlock : IsAttributeBlock lines)
      (later : IsInterlude rest) : IsInterlude (lines ++ rest)

/-! ### One step of the search -/

theorem balanceOf_cons (line : Line) (lines : List Line) :
    balanceOf (line :: lines) = closingBalance (Rust.codeOnly line) + balanceOf lines :=
  List.sum_cons

theorem balanceOf_reverse (lines : List Line) : balanceOf lines.reverse = balanceOf lines := by
  rw [balanceOf, List.map_reverse, List.sum_reverse, balanceOf]

theorem closingBalance_trim (line : Line) :
    closingBalance (Rust.codeOnly (Text.trim line)) = closingBalance (Rust.codeOnly line) := by
  have count {mark : Char} (filled : Text.isBlank mark = false) :=
    Rust.count_codeOnly_trim filled line
  rw [closingBalance, closingBalance, count rfl, count rfl, count rfl, count rfl]

/-- The search in terms of the lines as they are, blanks at their ends included. -/
theorem docsAbove_cons (depth : Int) (line : Line) (above : List Line) :
    docsAbove depth (line :: above) =
      if StartsWith "#[doc" line then true
      else if 0 < depth then
        docsAbove (max (depth + closingBalance (Rust.codeOnly line)) 0) above
      else if Text.trim line = [] ∨ StartsWith "#[" line then docsAbove depth above
      else if 0 < closingBalance (Rust.codeOnly line) ∧ EndsWithBracket line then
        docsAbove (closingBalance (Rust.codeOnly line)) above
      else "///".toList.isPrefixOf (Text.trim line) || "*/".toList.isSuffixOf (Text.trim line) := by
  rw [docsAbove, closingBalance_trim, Rust.getLast?_trimEnd_codeOnly_trim]
  simp only [List.isPrefixOf_iff_prefix, Bool.or_eq_true, List.isEmpty_iff, Bool.and_eq_true,
    decide_eq_true_eq, StartsWith, EndsWithBracket]
  congr

/-- Inside an attribute the search goes on with the brackets that are open then. -/
theorem docsAbove_of_open {depth : Int} (isOpen : 0 < depth) (noDocs : ¬ StartsWith "#[doc" line)
    (above : List Line) :
    docsAbove depth (line :: above) =
      docsAbove (max (depth + closingBalance (Rust.codeOnly line)) 0) above := by
  rw [docsAbove_cons, if_neg noDocs, if_pos isOpen]

/-- Blank lines and lines that start like an attribute are passed over. -/
theorem docsAbove_of_passed (passed : Text.trim line = [] ∨ StartsWith "#[" line)
    (noDocs : ¬ StartsWith "#[doc" line) (above : List Line) :
    docsAbove 0 (line :: above) = docsAbove 0 above := by
  rw [docsAbove_cons, if_neg noDocs, if_neg (lt_irrefl 0), if_pos passed]

/-- The last line of an attribute opens the search for its first one. -/
theorem docsAbove_of_closing (closes : 0 < closingBalance (Rust.codeOnly line))
    (ends : EndsWithBracket line) (goesOn : ¬ StartsWith "#[" line)
    (noDocs : ¬ StartsWith "#[doc" line) (above : List Line) :
    docsAbove 0 (line :: above) = docsAbove (closingBalance (Rust.codeOnly line)) above := by
  have filled : Text.trim line ≠ [] := by
    intro empty
    rw [← closingBalance_trim, empty,
      show Rust.codeOnly [] = [] from Rust.codeAfter_nil []] at closes
    exact absurd closes (by decide)
  rw [docsAbove_cons, if_neg noDocs, if_neg (lt_irrefl 0), if_neg (not_or.mpr ⟨filled, goesOn⟩),
    if_pos ⟨closes, ends⟩]

/-! ### Whole attributes -/

/-- Inside an attribute the search goes on through lines that do not yet open all that is open, and
comes out of it with the line that does. -/
theorem docsAbove_append_of_open {depth : Int} (isOpen : 0 < depth)
    (noDocs : ∀ line ∈ lines, ¬ StartsWith "#[doc" line)
    (inside : ∀ seen, seen <+: lines → seen ≠ lines → 0 < depth + balanceOf seen)
    (out : depth + balanceOf lines = 0) (above : List Line) :
    docsAbove depth (lines ++ above) = docsAbove 0 above := by
  induction lines generalizing depth with
  | nil =>
    have closed : depth + 0 = 0 := out
    omega
  | cons line rest inductionHypothesis =>
    rw [List.forall_mem_cons] at noDocs
    rw [balanceOf_cons, ← Int.add_assoc] at out
    rw [List.cons_append, docsAbove_of_open isOpen noDocs.1]
    cases rest with
    | nil =>
      have closed : depth + closingBalance (Rust.codeOnly line) + 0 = 0 := out
      rw [Int.add_zero] at closed
      rw [closed]
      rfl
    | cons next rest =>
      have first : [line] <+: line :: next :: rest := List.prefix_append [line] (next :: rest)
      have stillOpen : 0 < depth + closingBalance (Rust.codeOnly line) := by
        have open_ := inside [line] first (by simp)
        rwa [balanceOf_cons, show balanceOf [] = 0 from rfl, Int.add_zero] at open_
      rw [max_eq_left (Int.le_of_lt stillOpen)]
      refine inductionHypothesis stillOpen noDocs.2 (fun seen isPrefix apart => ?_) out
      have open_ := inside (line :: seen) (List.cons_prefix_cons.mpr ⟨rfl, isPrefix⟩)
        fun same => apart (List.cons.inj same).2
      rwa [balanceOf_cons, ← Int.add_assoc] at open_

/-- An attribute of several lines is passed over as a whole. -/
theorem docsAbove_of_block (isBlock : IsAttributeBlock lines)
    (noDocs : ∀ line ∈ lines, ¬ StartsWith "#[doc" line) (above : List Line) :
    docsAbove 0 (lines.reverse ++ above) = docsAbove 0 above := by
  have several := isBlock.several
  obtain ⟨upper, last, rfl⟩ : ∃ upper last, lines = upper ++ [last] := by
    rcases List.eq_nil_or_concat lines with rfl | ⟨upper, last, shape⟩
    · exact absurd several (by decide)
    · exact ⟨upper, last, shape.trans List.concat_eq_append⟩
  have filled : upper ≠ [] := by
    rintro rfl
    exact absurd several (by simp)
  rw [List.forall_mem_append] at noDocs
  -- What the search has seen of the attribute is the end of it, the last line included.
  have seen_pos (seen : List Line) (isPrefix : seen <+: upper.reverse)
      (apart : seen ≠ upper.reverse) :
      0 < closingBalance (Rust.codeOnly last) + balanceOf seen := by
    rw [← balanceOf_cons, ← balanceOf_reverse, List.reverse_cons]
    obtain ⟨unseen, whole⟩ := isPrefix
    refine isBlock.closing _ ⟨unseen.reverse, ?_⟩ (by simp) fun same => apart ?_
    · rw [← List.append_assoc, ← List.reverse_append, whole, List.reverse_reverse]
    · rw [← List.append_cancel_right same, List.reverse_reverse]
  have closes : 0 < closingBalance (Rust.codeOnly last) := by
    have none := seen_pos [] List.nil_prefix (by simpa using filled.symm)
    rwa [show balanceOf [] = 0 from rfl, Int.add_zero] at none
  have goesOn : ¬ StartsWith "#[" last := by
    refine isBlock.once last ?_
    rw [List.tail_append_of_ne_nil filled]
    exact List.mem_append_right _ List.mem_cons_self
  have closed : closingBalance (Rust.codeOnly last) + balanceOf upper.reverse = 0 := by
    rw [← balanceOf_cons, ← List.reverse_concat, balanceOf_reverse]
    exact isBlock.balanced
  rw [List.reverse_concat, List.cons_append,
    docsAbove_of_closing closes (isBlock.ends last List.getLast?_concat) goesOn
      (noDocs.2 last List.mem_cons_self)]
  exact docsAbove_append_of_open closes
    (fun line member => noDocs.1 line (List.mem_reverse.mp member)) seen_pos closed above

/-! ### Whatever stands between -/

theorem docsAbove_of_interlude (interlude : IsInterlude inserted)
    (noDocs : ∀ line ∈ inserted, ¬ StartsWith "#[doc" line) (above : List Line) :
    docsAbove 0 (inserted.reverse ++ above) = docsAbove 0 above := by
  induction interlude generalizing above with
  | nil => rfl
  | blank line rest empty later inductionHypothesis =>
    rw [List.forall_mem_cons] at noDocs
    rw [List.reverse_cons, List.append_assoc, inductionHypothesis noDocs.2]
    exact docsAbove_of_passed (Or.inl empty) noDocs.1 above
  | single line rest starts later inductionHypothesis =>
    rw [List.forall_mem_cons] at noDocs
    rw [List.reverse_cons, List.append_assoc, inductionHypothesis noDocs.2]
    exact docsAbove_of_passed (Or.inr starts) noDocs.1 above
  | block lines rest isBlock later inductionHypothesis =>
    rw [List.forall_mem_append] at noDocs
    rw [List.reverse_append, List.append_assoc, inductionHypothesis noDocs.2]
    exact docsAbove_of_block isBlock noDocs.1 above

/-- What is looked at above an item are the lines before its own. -/
theorem hasDocs_append (above below : List Line) :
    hasDocs (above ++ below) above.length = docsAbove 0 above.reverse := by
  rw [hasDocs, List.take_left]

/-- Blank lines and attributes that are put right above an item change neither whether it has a doc
comment nor what is reported of it, but for its line. -/
theorem docs_of_interlude (interlude : IsInterlude inserted)
    (noDocs : ∀ line ∈ inserted, ¬ StartsWith "#[doc" line) (above : List Line) (item : Line)
    (below : List Line) :
    hasDocs (above ++ inserted ++ item :: below) (above.length + inserted.length) =
        hasDocs (above ++ item :: below) above.length ∧
      ∀ settings path content content',
        checkDocs settings ⟨path, content', above ++ inserted ++ item :: below⟩
            (above.length + inserted.length) item =
          (checkDocs settings ⟨path, content, above ++ item :: below⟩ above.length item).map
            fun violation => { violation with line := violation.line + inserted.length } := by
  have same : hasDocs (above ++ inserted ++ item :: below) (above.length + inserted.length) =
      hasDocs (above ++ item :: below) above.length := by
    rw [← List.length_append, hasDocs_append, hasDocs_append, List.reverse_append]
    exact docsAbove_of_interlude interlude noDocs above.reverse
  refine ⟨same, fun settings path content content' => ?_⟩
  simp only [checkDocs, same]
  split
  · split
    · rfl
    · split
      · rfl
      · simp only [List.map_singleton, Int.natCast_add, Int.add_right_comm]
  · rfl

/-- A blank line, an attribute of several lines with brackets in a text and in a comment, another
blank line and an attribute of one line. -/
def derivedInterlude : List Line :=
  ["", "#[cfg_attr(", "    feature = \"[(\", // not ) yet", "    derive(Clone, Debug),",
    ")] // here", "  ", "    #[must_use]"].map String.toList

theorem docs_of_interlude_derivedInterlude :
    IsInterlude derivedInterlude ∧ (∀ line ∈ derivedInterlude, ¬ StartsWith "#[doc" line) ∧
      let above := ["/// A point.".toList]
      let item := "pub struct Point;".toList
      hasDocs (above ++ derivedInterlude ++ [item]) (1 + 7) = hasDocs (above ++ [item]) 1 ∧
        ∀ settings path content content',
          checkDocs settings ⟨path, content', above ++ derivedInterlude ++ [item]⟩ (1 + 7) item =
            (checkDocs settings ⟨path, content, above ++ [item]⟩ 1 item).map
              fun violation => { violation with line := violation.line + 7 } := by
  have isInterlude : IsInterlude derivedInterlude :=
    .blank _ _ (by decide) <|
      .block ((derivedInterlude.drop 1).take 4) _ (by decide +kernel) <|
        .blank _ _ (by decide) <| .single _ _ (by decide) .nil
  have noDocs : ∀ line ∈ derivedInterlude, ¬ StartsWith "#[doc" line := by decide
  exact ⟨isInterlude, noDocs, docs_of_interlude isInterlude noDocs _ _ []⟩

end CrateAudit.Scan

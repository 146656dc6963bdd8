/-
This file cuts a text into lines. A line ends at a line feed, a carriage return,
the two together, a vertical tab, a form feed, one of the three ASCII separators
for files, groups and records, a next-line control, or a line or paragraph
separator. No empty line is added after a last terminator.
-/

import CrateAudit.Text.Blank

namespace CrateAudit.Text

/-- A character that ends a line. -/
def endsLine (character : Char) : Bool :=
  let code := character.toNat
  (0x0A ≤ code && code ≤ 0x0D) || (0x1C ≤ code && code ≤ 0x1E) || code == 0x85 ||
    code == 0x2028 || code == 0x2029

/-- Puts a character in front of the first line. -/
def prepend (character : Char) : List Line → List Line
  | [] => [[character]]
  | line :: rest => (character :: line) :: rest

/-- The lines of a text. -/
def lines : List Char → List Line
  | [] => []
  | '\r' :: '\n' :: rest => [] :: lines rest
  | character :: rest =>
    if endsLine character then [] :: lines rest else prepend character (lines rest)

/-- A text without any terminator is one line, or none when it is empty. -/
theorem lines_of_no_end {text : List Char} (plain : ∀ character ∈ text, endsLine character = false)
    (nonempty : text ≠ []) : lines text = [text] := by
  induction text with
  | nil => exact absurd rfl nonempty
  | cons character rest inductionHypothesis =>
    have here := plain character List.mem_cons_self
    have notReturn : character ≠ '\r' := by
      intro same
      rw [same] at here
      exact absurd here (by decide)
    have step : lines (character :: rest) = prepend character (lines rest) := by
      rw [lines.eq_3 character rest (fun _ same _ => notReturn same)]
      simp [here]
    rw [step]
    cases rest with
    | nil => rfl
    | cons next tail =>
      rw [inductionHypothesis (fun c m => plain c (List.mem_cons_of_mem _ m)) (by simp)]
      rfl

/-- The text with each line feed pair and each carriage return turned into one line feed. -/
def unifyLineFeeds : List Char → List Char
  | [] => []
  | '\r' :: '\n' :: rest => '\n' :: unifyLineFeeds rest
  | '\r' :: rest => '\n' :: unifyLineFeeds rest
  | character :: rest => character :: unifyLineFeeds rest

end CrateAudit.Text

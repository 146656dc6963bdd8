/-
This file relates a text to its lines. A line holds no terminator; turning line breaks
into line feeds changes no line; and lines joined by line feeds are cut apart again,
but for a last line that is empty and is not terminated.
-/

import CrateAudit.Fix.Edit
import CrateAudit.Proofs.Search

namespace CrateAudit

namespace Text

/-! ### Lines hold no terminators -/

/-- A text in which no line ends. -/
def IsPlain (text : List Char) : Prop :=
  ∀ character ∈ text, endsLine character = false

theorem isPlain_nil : IsPlain [] := by
  intro character member
  cases member

theorem isPlain_cons {character : Char} {text : List Char} :
    IsPlain (character :: text) ↔ endsLine character = false ∧ IsPlain text := by
  simp [IsPlain]

theorem IsPlain.not_mem {text : List Char} (plain : IsPlain text) {character : Char}
    (ends : endsLine character = true) : character ∉ text := by
  intro member
  rw [plain character member] at ends
  cases ends

theorem lines_cons_of_plain {character : Char} (plain : endsLine character = false)
    (rest : List Char) : lines (character :: rest) = prepend character (lines rest) := by
  have notReturn : character ≠ '\r' := by
    rintro rfl
    cases plain
  rw [lines.eq_3 character rest (fun _ same _ => notReturn same), if_neg (by simp [plain])]

theorem lines_cons_of_ends {character : Char} (ends : endsLine character = true)
    {rest : List Char} (alone : ¬(character = '\r' ∧ rest.head? = some '\n')) :
    lines (character :: rest) = [] :: lines rest := by
  rw [lines.eq_3 character rest, if_pos ends]
  rintro later rfl rfl
  exact alone ⟨rfl, rfl⟩

theorem isPlain_of_mem_prepend {character : Char} {found : List Line}
    (plain : endsLine character = false) (each : ∀ line ∈ found, IsPlain line) :
    ∀ line ∈ prepend character found, IsPlain line := by
  cases found with
  | nil =>
    intro line member
    rw [prepend, List.mem_singleton] at member
    rw [member, isPlain_cons]
    exact ⟨plain, isPlain_nil⟩
  | cons first rest =>
    intro line member
    rw [prepend, List.mem_cons] at member
    rcases member with rfl | member
    · exact isPlain_cons.mpr ⟨plain, each first List.mem_cons_self⟩
    · exact each line (List.mem_cons_of_mem _ member)

/-- No line ends inside a line. -/
theorem isPlain_of_mem_lines {text : List Char} : ∀ line ∈ lines text, IsPlain line := by
  fun_induction lines text with
  | case1 => simp
  | case2 rest inductionHypothesis =>
    intro line member
    rcases List.mem_cons.mp member with rfl | member
    · exact isPlain_nil
    · exact inductionHypothesis line member
  | case3 character rest _ ends inductionHypothesis =>
    intro line member
    rcases List.mem_cons.mp member with rfl | member
    · exact isPlain_nil
    · exact inductionHypothesis line member
  | case4 character rest _ plain inductionHypothesis =>
    exact isPlain_of_mem_prepend (by simpa using plain) inductionHypothesis

/-- A plain text before something that ends a line is a line of its own. -/
theorem lines_append_of_ends {text ending rest : List Char} (plain : IsPlain text)
    (ends : lines ending = [] :: lines rest) : lines (text ++ ending) = text :: lines rest := by
  induction text with
  | nil => exact ends
  | cons character text inductionHypothesis =>
    rw [isPlain_cons] at plain
    rw [List.cons_append, lines_cons_of_plain plain.1, inductionHypothesis plain.2, prepend]

theorem lines_append_feed {text : List Char} (plain : IsPlain text) (rest : List Char) :
    lines (text ++ '\n' :: rest) = text :: lines rest :=
  lines_append_of_ends plain (lines_cons_of_ends rfl (by simp))

/-! ### Line feeds alone -/

theorem unifyLineFeeds_cons_of_ne {character : Char} (other : character ≠ '\r')
    (rest : List Char) :
    unifyLineFeeds (character :: rest) = character :: unifyLineFeeds rest := by
  rw [unifyLineFeeds]
  · exact fun _ same _ => other same
  · exact other

theorem unifyLineFeeds_of_not_mem {text : List Char} (none : '\r' ∉ text) :
    unifyLineFeeds text = text := by
  induction text with
  | nil => rfl
  | cons character text inductionHypothesis =>
    rw [List.mem_cons, not_or] at none
    rw [unifyLineFeeds_cons_of_ne (Ne.symm none.1), inductionHypothesis none.2]

theorem return_not_mem_unifyLineFeeds (text : List Char) : '\r' ∉ unifyLineFeeds text := by
  fun_induction unifyLineFeeds text with
  | case1 => simp
  | case2 rest inductionHypothesis => simpa using inductionHypothesis
  | case3 rest _ inductionHypothesis => simpa using inductionHypothesis
  | case4 character rest _ other inductionHypothesis =>
    rw [List.mem_cons, not_or]
    exact ⟨fun same => other same.symm, inductionHypothesis⟩

/-- A text ends in a line feed once it ended in a line feed or a carriage return. -/
theorem getLast?_unifyLineFeeds (text : List Char) :
    (unifyLineFeeds text).getLast? = some '\n' ↔
      text.getLast? = some '\n' ∨ text.getLast? = some '\r' := by
  have cons (character : Char) (rest : List Char) (nonempty : rest ≠ []) :
      (character :: rest).getLast? = rest.getLast? := by
    obtain ⟨next, later, rfl⟩ := List.exists_cons_of_ne_nil nonempty
    exact List.getLast?_cons_cons
  have empty {rest : List Char} (none : unifyLineFeeds rest = []) : rest = [] := by
    fun_cases unifyLineFeeds rest <;> simp_all [unifyLineFeeds]
  fun_induction unifyLineFeeds text with
  | case1 => simp
  | case2 rest inductionHypothesis =>
    by_cases last : rest = []
    · simp [last, unifyLineFeeds]
    · rw [cons _ _ (fun none => last (empty none)), cons _ _ (by simp), cons _ _ last]
      exact inductionHypothesis
  | case3 rest _ inductionHypothesis =>
    by_cases last : rest = []
    · simp [last, unifyLineFeeds]
    · rw [cons _ _ (fun none => last (empty none)), cons _ _ last]
      exact inductionHypothesis
  | case4 character rest _ other inductionHypothesis =>
    by_cases last : rest = []
    · have notReturn : character ≠ '\r' := fun same => other same
      simp [last, unifyLineFeeds, notReturn]
    · rw [cons _ _ (fun none => last (empty none)), cons _ _ last]
      exact inductionHypothesis

/-- Turning line breaks into line feeds changes no line. -/
theorem lines_unifyLineFeeds (text : List Char) : lines (unifyLineFeeds text) = lines text := by
  fun_induction unifyLineFeeds text with
  | case1 => rfl
  | case2 rest inductionHypothesis =>
    rw [lines_cons_of_ends rfl (by simp), inductionHypothesis, lines]
  | case3 rest notPair inductionHypothesis =>
    rw [lines_cons_of_ends rfl (by simp), inductionHypothesis,
      lines_cons_of_ends (show endsLine '\r' = true from rfl)]
    rintro ⟨-, pair⟩
    cases rest with
    | nil => cases pair
    | cons next later =>
      cases pair
      exact notPair later rfl
  | case4 character rest _ other inductionHypothesis =>
    have notReturn : character ≠ '\r' := fun same => other same
    cases ends : endsLine character with
    | true =>
      rw [lines_cons_of_ends ends (by simp [notReturn]),
        lines_cons_of_ends ends (by simp [notReturn]), inductionHypothesis]
    | false => rw [lines_cons_of_plain ends, lines_cons_of_plain ends, inductionHypothesis]

/-! ### Joining lines -/

/-- Lines joined by line feeds, with one after the last if `closed`. -/
def rejoin (closed : Bool) : List Line → List Char
  | [] => []
  | [line] => line ++ if closed then ['\n'] else []
  | line :: next :: rest => line ++ '\n' :: rejoin closed (next :: rest)

theorem intercalate_feed (closed : Bool) (found : List Line) (nonempty : found ≠ []) :
    ['\n'].intercalate found ++ (if closed then ['\n'] else []) = rejoin closed found := by
  induction found with
  | nil => contradiction
  | cons line rest inductionHypothesis =>
    cases rest with
    | nil => simp [rejoin]
    | cons next rest =>
      rw [List.intercalate_cons_cons, rejoin, ← inductionHypothesis (by simp)]
      simp

/-- What remains of lines that are joined and cut again: an empty last line without a
terminator is lost. -/
def withoutOpenEnd (closed : Bool) (found : List Line) : List Line :=
  if !closed && found.getLast? == some [] then found.dropLast else found

theorem withoutOpenEnd_cons {closed : Bool} {line next : Line} {rest : List Line} :
    withoutOpenEnd closed (line :: next :: rest) =
      line :: withoutOpenEnd closed (next :: rest) := by
  rw [withoutOpenEnd, withoutOpenEnd, List.getLast?_cons_cons]
  split <;> rfl

/-- Only an empty line is lost. -/
theorem mem_withoutOpenEnd {closed : Bool} {found : List Line} {line : Line} (filled : line ≠ []) :
    line ∈ withoutOpenEnd closed found ↔ line ∈ found := by
  rw [withoutOpenEnd]
  split
  · rename_i lost
    rw [Bool.and_eq_true, beq_iff_eq] at lost
    obtain ⟨before, shape⟩ := List.getLast?_eq_some_iff.mp lost.2
    rw [shape, List.dropLast_concat, List.mem_append, List.mem_singleton]
    exact ⟨Or.inl, fun member => member.resolve_right filled⟩
  · exact Iff.rfl

/-- Joined lines are cut where they were joined. -/
theorem lines_rejoin (closed : Bool) {found : List Line}
    (plain : ∀ line ∈ found, IsPlain line) :
    lines (rejoin closed found) = withoutOpenEnd closed found := by
  induction found with
  | nil => cases closed <;> rfl
  | cons line rest inductionHypothesis =>
    have here := plain line List.mem_cons_self
    cases rest with
    | nil =>
      cases closed with
      | true => exact lines_append_feed here []
      | false =>
        cases line with
        | nil => rfl
        | cons character line =>
          rw [rejoin, if_neg (by simp), List.append_nil, lines_of_no_end here (by simp)]
          rfl
    | cons next rest =>
      rw [rejoin, lines_append_feed here, withoutOpenEnd_cons,
        inductionHypothesis fun l m => plain l (List.mem_cons_of_mem _ m)]

theorem return_not_mem_rejoin (closed : Bool) {found : List Line}
    (plain : ∀ line ∈ found, IsPlain line) : '\r' ∉ rejoin closed found := by
  induction found with
  | nil => simp [rejoin]
  | cons line rest inductionHypothesis =>
    have here := (plain line List.mem_cons_self).not_mem (show endsLine '\r' = true from rfl)
    cases rest with
    | nil => cases closed <;> simp [rejoin, here]
    | cons next rest =>
      have later := inductionHypothesis fun l m => plain l (List.mem_cons_of_mem _ m)
      simp [rejoin, here, later]

end Text

namespace Fix

/-- A text without carriage returns is written with line feeds. -/
theorem joinLines_eq_rejoin {content : List Char} (feeds : '\r' ∉ content)
    (found : List Line) :
    joinLines content found = Text.rejoin (content.getLast? == some '\n') found := by
  have single : lineBreak content = ['\n'] := by
    rw [lineBreak, if_neg]
    intro pair
    exact feeds (Text.mem_of_includes pair List.mem_cons_self)
  cases found with
  | nil => rfl
  | cons line rest =>
    rw [joinLines, single, ← Text.intercalate_feed _ _ (by simp)]
    by_cases closed : content.getLast? = some '\n' <;> simp [closed]

end Fix

end CrateAudit

/-
This file says where a match stands in its line. A way of a pattern moves on over some
text, whatever it captures and looks at on the way, so the text of a match is what the
line holds at its start, and a search gives the first of all matches.
-/

import CrateAudit.Proofs.Reaching

namespace CrateAudit

namespace Place

variable {place middle next : Place}

/-- The second place follows the first one after a text, whatever was captured on the way. -/
structure Moves (place : Place) (text : List Char) (next : Place) : Prop where
  offset : next.offset = place.offset + text.length
  before : next.before = text.reverse ++ place.before
  after : place.after = text ++ next.after

theorem Passes.moves {text : List Char} (passes : place.Passes text next) :
    place.Moves text next :=
  ⟨passes.offset, passes.before, passes.after⟩

theorem Moves.append {first second : List Char} (moves : place.Moves first middle)
    (moves' : middle.Moves second next) : place.Moves (first ++ second) next where
  offset := by rw [moves'.offset, moves.offset, List.length_append]; omega
  before := by rw [moves'.before, moves.before, List.reverse_append, List.append_assoc]
  after := by rw [moves.after, moves'.after, List.append_assoc]

/-- What is captured at a place moves it nowhere. -/
theorem Moves.regroup {text : List Char} (moves : place.Moves text next)
    (groups : List (Nat × Nat × Nat)) : place.Moves text { next with groups } :=
  ⟨moves.offset, moves.before, moves.after⟩

/-- The place is one of a line: what is before it counts up to its offset. -/
structure StandsIn (place : Place) (line : Line) : Prop where
  whole : place.line = line
  offset : place.offset = place.before.length

theorem StandsIn.of_moves {line text : List Char} (stands : place.StandsIn line)
    (moves : place.Moves text next) : next.StandsIn line where
  whole := by
    rw [← stands.whole, Place.line, Place.line, moves.before, moves.after, List.reverse_append,
      List.reverse_reverse, List.append_assoc]
  offset := by
    rw [moves.offset, moves.before, stands.offset, List.length_append, List.length_reverse,
      Nat.add_comm]

/-- What lies between two places of a line is the text that the way moves over. -/
theorem StandsIn.between {line text : List Char} (stands : place.StandsIn line)
    (moves : place.Moves text next) : next.between place.offset next.offset = text := by
  rw [Place.between, moves.before, List.reverse_append, List.reverse_reverse, List.append_assoc,
    moves.offset, stands.offset, ← @List.length_reverse _ place.before, ← List.append_assoc,
    ← List.length_append, List.take_left, List.drop_left]

end Place

namespace Regex

variable {regex : Regex} {line : Line} {found : Match}

theorem moves_of_rounds {step : Place → Place → Prop}
    (moves : ∀ {place next : Place}, step place next → ∃ text, place.Moves text next) {count : Nat}
    {place next : Place} (rounds : Rounds step count place next) :
    ∃ text, place.Moves text next := by
  induction count generalizing place with
  | zero =>
    cases rounds
    exact ⟨[], (Place.Passes.nil _).moves⟩
  | succ count inductionHypothesis =>
    obtain ⟨middle, here, rest⟩ := rounds
    obtain ⟨first, moves⟩ := moves here
    obtain ⟨second, moves'⟩ := inductionHypothesis rest
    exact ⟨_, moves.append moves'⟩

/-- Every way of a pattern moves on over some text. -/
theorem moves_of_reaches {place next : Place} (way : Reaches regex place next) :
    ∃ text, place.Moves text next := by
  have stays (place : Place) : ∃ text, place.Moves text place :=
    ⟨[], (Place.Passes.nil place).moves⟩
  induction regex generalizing place next with
  | empty =>
    cases way
    exact stays place
  | never => cases way
  | one test ignoreCase =>
    obtain ⟨character, _, passes⟩ := way
    exact ⟨[character], passes.moves⟩
  | anchor kind =>
    obtain ⟨_, rfl⟩ := way
    exact stays next
  | sequence first second first_moves second_moves =>
    obtain ⟨middle, here, there⟩ := way
    obtain ⟨text, moves⟩ := first_moves here
    obtain ⟨text', moves'⟩ := second_moves there
    exact ⟨_, moves.append moves'⟩
  | choice first second first_moves second_moves => exact way.elim first_moves second_moves
  | group index body moves =>
    obtain ⟨inner, there, rfl⟩ := way
    obtain ⟨text, moves⟩ := moves there
    exact ⟨text, moves.regroup _⟩
  | reference index ignoreCase =>
    obtain ⟨_, _, consumed⟩ := way
    obtain ⟨own, passes⟩ := Place.exists_passes_of_consume? consumed
    exact ⟨own, passes.moves⟩
  | repetition body least most greedy moves =>
    obtain ⟨count, _, rounds⟩ := way
    exact moves_of_rounds moves rounds
  | atomic body moves => exact moves way
  | ahead body negated moves =>
    rw [Reaches] at way
    split at way
    · cases way
      exact stays place
    · obtain ⟨inner, _, rfl⟩ := way
      exact ⟨[], (Place.Passes.nil place).moves.regroup _⟩
  | behind width body negated moves =>
    rw [Reaches] at way
    split at way
    · cases way
      exact stays place
    · obtain ⟨earlier, inner, _, _, rfl⟩ := way
      exact ⟨[], (Place.Passes.nil place).moves.regroup _⟩

end Regex

/-! ### Where matches stand -/

/-- The match is one of a line: its text stands there at its start, and it ends in the line. -/
structure Match.StandsIn (found : Match) (line : Line) : Prop where
  text : found.start ∈ Text.occurrences found.text line
  final : found.final.StandsIn line

namespace Regex

variable {regex : Regex} {line : Line} {found : Match}

theorem standsIn_of_matchAt? {advancing : Bool} {place : Place} (stands : place.StandsIn line)
    (matched : regex.matchAt? advancing place = some found) : found.StandsIn line := by
  obtain ⟨starts, way⟩ := reaches_of_matchAt? matched
  obtain ⟨text, moves⟩ := moves_of_reaches way
  have own : found.text = text := by
    rw [Match.text, starts]
    exact stands.between moves
  have whole : line = place.before.reverse ++ (text ++ found.final.after) := by
    rw [← moves.after]
    exact stands.whole.symm
  have start : found.start = place.before.reverse.length := by
    rw [starts, stands.offset, List.length_reverse]
  refine ⟨?_, stands.of_moves moves⟩
  rw [own, Text.mem_occurrences, whole, start, List.drop_left]
  exact ⟨by simp, List.prefix_append _ _⟩

theorem standsIn_of_searchFrom {advancing : Bool} {offset : Nat} {before after : List Char}
    (whole : before.reverse ++ after = line) (size : offset = before.length)
    (matched : regex.searchFrom advancing offset before after = some found) :
    found.StandsIn line := by
  have stands : (Place.mk offset before after []).StandsIn line := ⟨whole, size⟩
  obtain ⟨place, _, matched, _, passes⟩ := exists_matchAt?_of_searchFrom matched
  exact standsIn_of_matchAt? (stands.of_moves passes.moves) matched

theorem standsIn_of_mem_matchesFrom {bound : Nat} {advancing : Bool} {place : Place}
    (stands : place.StandsIn line) (member : found ∈ regex.matchesFrom bound advancing place) :
    found.StandsIn line := by
  induction bound generalizing advancing place with
  | zero => cases member
  | succ bound inductionHypothesis =>
    rw [matchesFrom] at member
    split at member
    · cases member
    · rename_i first matched
      have here : first.StandsIn line := standsIn_of_searchFrom stands.whole stands.offset matched
      rcases List.mem_cons.mp member with rfl | later
      · exact here
      · have stands : ({ first.final with groups := [] } : Place).StandsIn line :=
          ⟨here.final.whole, here.final.offset⟩
        exact inductionHypothesis stands later

/-- Every match in a line stands in it. -/
theorem standsIn_of_mem_matchesOf (member : found ∈ regex.matchesOf line) : found.StandsIn line :=
  standsIn_of_mem_matchesFrom ⟨rfl, rfl⟩ member

/-- A search gives the first of all matches. -/
theorem head?_matchesOf (regex : Regex) (line : Line) :
    (regex.matchesOf line).head? = regex.search? line := by
  rw [matchesOf, matchesFrom, search?, Place.start]
  cases regex.searchFrom false 0 [] line <;> rfl

end Regex

end CrateAudit

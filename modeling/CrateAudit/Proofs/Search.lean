/-
This file says what it means that one text occurs in another: it stands somewhere
inside it, from some index on. Everything that is found by searching is found there.
A step for each item, which may fail, fails as a whole if it does for one of them.
-/

import CrateAudit.Text.Search

namespace CrateAudit

/-! ### What stands from an index on -/

section

variable {Item : Type} {items rest : List Item} {first : Item} {index : Nat}

theorem lt_of_drop (left : items.drop index = first :: rest) : index < items.length := by
  have short := congrArg List.length left
  rw [List.length_drop, List.length_cons] at short
  omega

theorem getElem?_of_drop (left : items.drop index = first :: rest) :
    items[index]? = some first := by
  have head := congrArg List.head? left
  rwa [List.head?_drop] at head

theorem drop_succ_of_drop (left : items.drop index = first :: rest) :
    items.drop (index + 1) = rest := by
  rw [← List.drop_drop, left]
  rfl

/-- What stands before the end of a piece is what stands before it, and the piece. -/
theorem take_add_of_drop {piece : List Item} (left : items.drop index = piece ++ rest) :
    items.take (index + piece.length) = items.take index ++ piece := by
  rw [List.take_add, left, List.take_left]

theorem drop_add_of_drop {piece : List Item} (left : items.drop index = piece ++ rest) :
    items.drop (index + piece.length) = rest := by
  rw [← List.drop_drop, left, List.drop_left]

end

/-! ### Steps that may fail -/

section

variable {Item Result : Type} {step : Item → Option Result} {items : List Item}

/-- A result for each item is the result for all of them. -/
theorem mapM_eq_some_iff {found : List Result} :
    items.mapM step = some found ↔ items.map step = found.map some := by
  induction items generalizing found with
  | nil => cases found <;> simp
  | cons item items inductionHypothesis =>
    rw [List.mapM_cons, List.map_cons]
    cases step item with
    | none => cases found <;> simp
    | some result =>
      cases later : items.mapM step <;> cases found <;> simp [← inductionHypothesis, later]

theorem mapM_eq_none_iff : items.mapM step = none ↔ ∃ item ∈ items, step item = none := by
  induction items with
  | nil => simp
  | cons item items inductionHypothesis =>
    rw [List.mapM_cons]
    simp only [List.mem_cons, exists_eq_or_imp, ← inductionHypothesis]
    cases step item with
    | none => simp
    | some result =>
      cases items.mapM step <;> simp

end

namespace Text

/-! ### Texts in texts -/

/-- A text that occurs at an offset stands before what follows it. -/
theorem prefix_drop_of_find? {sought text : List Char} {offset : Nat}
    (found : find? sought text = some offset) : sought <+: text.drop offset := by
  induction text generalizing offset with
  | nil =>
    rw [find?] at found
    split at found
    · rename_i empty
      rw [List.isEmpty_iff.mp empty]
      exact List.nil_prefix
    · cases found
  | cons character rest inductionHypothesis =>
    rw [find?] at found
    split at found
    · rename_i starts
      cases found
      exact List.isPrefixOf_iff_prefix.mp starts
    · obtain ⟨later, foundLater, rfl⟩ := Option.map_eq_some_iff.mp found
      exact inductionHypothesis foundLater

/-- Searching finds exactly the texts that stand inside. -/
theorem includes_iff_isInfix {sought text : List Char} :
    includes sought text = true ↔ sought <:+: text := by
  constructor
  · intro found
    obtain ⟨offset, found⟩ := Option.isSome_iff_exists.mp found
    exact (prefix_drop_of_find? found).isInfix.trans (List.drop_suffix offset text).isInfix
  · intro inside
    induction text with
    | nil =>
      rw [List.infix_nil.mp inside]
      rfl
    | cons character rest inductionHypothesis =>
      rw [includes, find?]
      split
      · rfl
      · rename_i notHere
        rcases List.infix_cons_iff.mp inside with here | later
        · exact absurd (List.isPrefixOf_iff_prefix.mpr here) notHere
        · simpa [includes] using inductionHypothesis later

/-- Every character of a text that occurs is a character of the text it occurs in. -/
theorem mem_of_includes {sought text : List Char} (found : includes sought text = true)
    {character : Char} (member : character ∈ sought) : character ∈ text :=
  (includes_iff_isInfix.mp found).subset member

/-- A text occurs exactly if it has an occurrence. -/
theorem includes_iff_occurrences_ne_nil {sought text : List Char} :
    includes sought text = true ↔ occurrences sought text ≠ [] := by
  rw [includes_iff_isInfix]
  constructor
  · rintro ⟨before, after, rfl⟩ none
    have member : before.length ∈ occurrences sought (before ++ sought ++ after) := by
      rw [mem_occurrences]
      simp
    rw [none] at member
    cases member
  · intro some
    obtain ⟨offset, member⟩ := List.exists_mem_of_ne_nil _ some
    rw [mem_occurrences] at member
    exact member.2.isInfix.trans (List.drop_suffix offset text).isInfix

/-- Occurrences are listed in ascending order, each of them once. -/
theorem pairwise_occurrencesFrom (sought : List Char) (offset : Nat) (text : List Char) :
    (occurrencesFrom sought offset text).Pairwise (· < ·) := by
  induction text generalizing offset with
  | nil =>
    rw [occurrencesFrom]
    split
    · exact List.pairwise_singleton _ _
    · exact List.Pairwise.nil
  | cons character rest inductionHypothesis =>
    rw [occurrencesFrom]
    split
    · refine List.pairwise_cons.mpr ⟨fun later member => ?_, inductionHypothesis (offset + 1)⟩
      exact (mem_occurrencesFrom.mp member).1
    · exact inductionHypothesis (offset + 1)

theorem pairwise_occurrences (sought text : List Char) :
    (occurrences sought text).Pairwise (· < ·) :=
  pairwise_occurrencesFrom sought 0 text

/-- A text that is not empty occurs where the text around it continues with it. -/
theorem mem_occurrences_of_ne_nil {sought text : List Char} (filled : sought ≠ [])
    {offset : Nat} : offset ∈ occurrences sought text ↔ sought <+: text.drop offset := by
  refine mem_occurrences.trans (and_iff_right_of_imp fun here => ?_)
  refine Nat.le_of_not_lt fun past => filled ?_
  rwa [List.drop_eq_nil_of_le (by omega), List.prefix_nil] at here

end Text

end CrateAudit

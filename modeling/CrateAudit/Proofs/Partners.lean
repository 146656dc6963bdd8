/-
This file says which parenthesis closes another one without counting depth: two are
partners if every parenthesis between them has its partner there too. Counting finds the
partner of a parenthesis exactly where it has one. Partners do not cross: an opening
parenthesis between two partners has its own partner between them.
-/

import CrateAudit.Fix.Parenthesis

namespace CrateAudit.Fix

/-- A text in which every parenthesis has its partner. -/
inductive IsBalanced : Line → Prop where
  | nil : IsBalanced []
  | other {character : Char} {rest : Line} (noOpening : character ≠ '(')
    (noClosing : character ≠ ')') (later : IsBalanced rest) : IsBalanced (character :: rest)
  | nested {inner rest : Line} (within : IsBalanced inner) (later : IsBalanced rest) :
    IsBalanced ('(' :: (inner ++ ')' :: rest))

/-- The parenthesis at one offset closes the one at another. -/
structure ArePartners (code : Line) (opening closing : Nat) : Prop where
  between : ∃ inner rest, code.drop opening = '(' :: (inner ++ ')' :: rest) ∧ IsBalanced inner ∧
    closing = opening + inner.length + 1

variable {code line rest : Line} {opening closing : Nat}

/-! ### Counting depth -/

theorem closingFrom?_opening (depth : Int) (rest : Line) :
    closingFrom? depth ('(' :: rest) = (closingFrom? (depth + 1) rest).map (· + 1) := rfl

theorem closingFrom?_closing_one (rest : Line) : closingFrom? 1 (')' :: rest) = some 0 := rfl

theorem closingFrom?_closing {depth : Int} (deep : depth ≠ 1) (rest : Line) :
    closingFrom? depth (')' :: rest) = (closingFrom? (depth - 1) rest).map (· + 1) := by
  rw [closingFrom?, if_neg (by decide), if_pos rfl, if_neg deep]

theorem closingFrom?_other {character : Char} (noOpening : character ≠ '(')
    (noClosing : character ≠ ')') (depth : Int) (rest : Line) :
    closingFrom? depth (character :: rest) = (closingFrom? depth rest).map (· + 1) := by
  rw [closingFrom?, if_neg noOpening, if_neg noClosing]

/-- A balanced text is passed at the same depth. -/
theorem IsBalanced.closingFrom?_append {inner : Line} (balanced : IsBalanced inner) {depth : Int}
    (deep : 1 ≤ depth) (rest : Line) :
    closingFrom? depth (inner ++ rest) = (closingFrom? depth rest).map (· + inner.length) := by
  induction balanced generalizing depth rest with
  | nil => simp
  | other noOpening noClosing _ inductionHypothesis =>
    rw [List.cons_append, closingFrom?_other noOpening noClosing, inductionHypothesis deep,
      Option.map_map]
    rfl
  | @nested inner later _ _ within_passes later_passes =>
    have deeper : depth + 1 ≠ 1 := by omega
    rw [List.cons_append, closingFrom?_opening, List.append_assoc, within_passes (by omega),
      List.cons_append, closingFrom?_closing deeper, Int.add_sub_cancel, later_passes deep]
    simp only [Option.map_map]
    congr 1
    funext offset
    simp only [Function.comp_apply, List.length_cons, List.length_append]
    omega

/-- Where a depth comes to zero, a lesser one does before. -/
theorem exists_closingFrom?_of_deeper {depth deeper : Int} (deep : 1 ≤ depth)
    (less : depth < deeper) {offset : Nat} (closes : closingFrom? deeper line = some offset) :
    ∃ earlier < offset, closingFrom? depth line = some earlier := by
  induction line generalizing depth deeper offset with
  | nil => cases closes
  | cons character rest inductionHypothesis =>
    have step {depth deeper : Int} (deep : 1 ≤ depth) (less : depth < deeper)
        (closes : (closingFrom? deeper rest).map (· + 1) = some offset) :
        ∃ earlier < offset, (closingFrom? depth rest).map (· + 1) = some earlier := by
      obtain ⟨later, found, rfl⟩ := Option.map_eq_some_iff.mp closes
      obtain ⟨earlier, before, found'⟩ := inductionHypothesis deep less found
      exact ⟨earlier + 1, by omega, by rw [found']; rfl⟩
    by_cases isOpening : character = '('
    · rw [isOpening, closingFrom?_opening] at closes ⊢
      exact step (by omega) (by omega) closes
    by_cases isClosing : character = ')'
    · rw [isClosing, closingFrom?_closing (by omega)] at closes
      rw [isClosing]
      by_cases last : depth = 1
      · obtain ⟨later, _, rfl⟩ := Option.map_eq_some_iff.mp closes
        exact ⟨0, by omega, by rw [last, closingFrom?_closing_one]⟩
      · rw [closingFrom?_closing last]
        exact step (by omega) (by omega) closes
    · rw [closingFrom?_other isOpening isClosing] at closes ⊢
      exact step deep less closes

/-- Further on the depth is another one, and comes to zero at the same place. -/
theorem exists_closingFrom?_drop {depth : Int} (deep : 1 ≤ depth) {offset count : Nat}
    (closes : closingFrom? depth line = some offset) (before : count ≤ offset) :
    ∃ other, 1 ≤ other ∧ closingFrom? other (line.drop count) = some (offset - count) := by
  induction count generalizing line depth offset with
  | zero => exact ⟨depth, deep, closes⟩
  | succ count inductionHypothesis =>
    cases line with
    | nil => cases closes
    | cons character rest =>
      have step {depth : Int} (deep : 1 ≤ depth)
          (closes : (closingFrom? depth rest).map (· + 1) = some offset) :
          ∃ other, 1 ≤ other ∧
            closingFrom? other ((character :: rest).drop (count + 1)) =
              some (offset - (count + 1)) := by
        obtain ⟨later, found, rfl⟩ := Option.map_eq_some_iff.mp closes
        obtain ⟨other, deep', found'⟩ := inductionHypothesis deep found (by omega)
        exact ⟨other, deep', by rw [List.drop_succ_cons, found', Nat.add_sub_add_right]⟩
      by_cases isOpening : character = '('
      · rw [isOpening, closingFrom?_opening] at closes
        exact step (by omega) closes
      by_cases isClosing : character = ')'
      · by_cases last : depth = 1
        · rw [isClosing, last, closingFrom?_closing_one] at closes
          cases closes
          omega
        · rw [isClosing, closingFrom?_closing last] at closes
          exact step (by omega) closes
      · rw [closingFrom?_other isOpening isClosing] at closes
        exact step deep closes

/-- A balanced text comes first, and then the parenthesis that takes one level away. -/
theorem exists_balanced_of_closingFrom? {depth : Int} (deep : 1 ≤ depth) (line : Line)
    {offset : Nat} (closes : closingFrom? depth line = some offset) :
    ∃ inner rest, line = inner ++ ')' :: rest ∧ IsBalanced inner ∧
      (depth = 1 ∧ offset = inner.length ∨ 1 < depth ∧
        ∃ later, closingFrom? (depth - 1) rest = some later ∧
          offset = inner.length + 1 + later) := by
  induction size : line.length using Nat.strongRecOn generalizing depth line offset with
  | ind length inductionHypothesis =>
  subst size
  cases line with
  | nil => cases closes
  | cons character line =>
    by_cases isOpening : character = '('
    · -- The partner of this parenthesis comes first, and then the one that is looked for.
      rw [isOpening, closingFrom?_opening] at closes
      obtain ⟨later, found, rfl⟩ := Option.map_eq_some_iff.mp closes
      obtain ⟨inner, rest, shape, balanced, ends⟩ :=
        inductionHypothesis _ (Nat.lt_succ_self _) (by omega) line found rfl
      obtain ⟨shallow, -⟩ | ⟨-, further, found', rfl⟩ := ends
      · omega
      rw [Int.add_sub_cancel] at found'
      have shorter := congrArg List.length shape
      simp only [List.length_append, List.length_cons] at shorter
      obtain ⟨inner', rest', shape', balanced', ends⟩ :=
        inductionHypothesis _ (by rw [List.length_cons]; omega) deep rest found' rfl
      refine ⟨'(' :: (inner ++ ')' :: inner'), rest', ?_, .nested balanced balanced', ?_⟩
      · rw [isOpening, shape, shape']
        simp
      · simp only [List.length_cons, List.length_append]
        rcases ends with ⟨shallow, rfl⟩ | ⟨deeper, last, found'', rfl⟩
        · exact Or.inl ⟨shallow, by omega⟩
        · exact Or.inr ⟨deeper, last, found'', by omega⟩
    by_cases isClosing : character = ')'
    · refine ⟨[], line, by rw [isClosing]; rfl, .nil, ?_⟩
      by_cases last : depth = 1
      · rw [isClosing, last, closingFrom?_closing_one] at closes
        cases closes
        exact Or.inl ⟨last, rfl⟩
      · rw [isClosing, closingFrom?_closing last] at closes
        obtain ⟨later, found, rfl⟩ := Option.map_eq_some_iff.mp closes
        exact Or.inr ⟨by omega, later, found, by rw [List.length_nil]; omega⟩
    · rw [closingFrom?_other isOpening isClosing] at closes
      obtain ⟨later, found, rfl⟩ := Option.map_eq_some_iff.mp closes
      obtain ⟨inner, rest, shape, balanced, ends⟩ :=
        inductionHypothesis _ (Nat.lt_succ_self _) deep line found rfl
      refine ⟨character :: inner, rest, by rw [shape]; rfl,
        .other isOpening isClosing balanced, ?_⟩
      rw [List.length_cons]
      rcases ends with ⟨shallow, rfl⟩ | ⟨deeper, last, found', rfl⟩
      · exact Or.inl ⟨shallow, rfl⟩
      · exact Or.inr ⟨deeper, last, found', by omega⟩

/-! ### Partners -/

/-- Counting finds the partner of a parenthesis. -/
theorem arePartners_iff (opens : code.drop opening = '(' :: rest) :
    ArePartners code opening closing ↔ matchingParenthesis? code opening = some closing := by
  have count : matchingParenthesis? code opening =
      (closingFrom? 1 rest).map fun offset => opening + (offset + 1) := by
    rw [matchingParenthesis?, opens, closingFrom?_opening, Option.map_map]
    rfl
  rw [count]
  constructor
  · rintro ⟨inner, later, shape, balanced, rfl⟩
    cases opens.symm.trans shape
    rw [balanced.closingFrom?_append (Int.le_refl 1), closingFrom?_closing_one, Option.map_some,
      Option.map_some, Nat.zero_add, Nat.add_assoc]
  · intro found
    obtain ⟨offset, closes, rfl⟩ := Option.map_eq_some_iff.mp found
    obtain ⟨inner, later, rfl, balanced, ends⟩ :=
      exists_balanced_of_closingFrom? (Int.le_refl 1) rest closes
    obtain ⟨-, rfl⟩ | ⟨impossible, -⟩ := ends
    · exact ⟨inner, later, opens, balanced, rfl⟩
    · exact absurd impossible (Int.lt_irrefl 1)

/-- A parenthesis has one partner. -/
theorem ArePartners.unique {closing' : Nat} (partners : ArePartners code opening closing)
    (partners' : ArePartners code opening closing') : closing = closing' := by
  obtain ⟨inner, rest, shape, -⟩ := partners.between
  rw [arePartners_iff shape] at partners partners'
  exact Option.some_inj.mp (partners.symm.trans partners')

/-- Partners stand in this order, and the second one closes. -/
theorem ArePartners.lt (partners : ArePartners code opening closing) :
    opening < closing ∧ code[closing]? = some ')' := by
  obtain ⟨inner, rest, shape, -, rfl⟩ := partners.between
  refine ⟨by omega, ?_⟩
  rw [Nat.add_assoc, ← List.getElem?_drop, shape, List.getElem?_cons_succ,
    List.getElem?_append_right (Nat.le_refl _), Nat.sub_self]
  rfl

/-- An opening parenthesis between two partners has its own partner between them. -/
theorem ArePartners.exists_within {inner : Nat} (partners : ArePartners code opening closing)
    (opens : code.drop inner = '(' :: rest) (after : opening < inner) (before : inner < closing) :
    ∃ closing' < closing, ArePartners code inner closing' := by
  obtain ⟨between, later, shape, -, rfl⟩ := partners.between
  rw [arePartners_iff shape, matchingParenthesis?, shape, closingFrom?_opening, Option.map_map]
    at partners
  obtain ⟨offset, closes, same⟩ := Option.map_eq_some_iff.mp partners
  obtain ⟨skip, rfl⟩ := Nat.exists_eq_add_of_lt after
  simp only [Function.comp_apply] at same
  obtain ⟨depth, deep, found⟩ := exists_closingFrom?_drop (Int.le_refl 1) closes
    (show skip ≤ offset by omega)
  have left : (between ++ ')' :: later).drop skip = '(' :: rest := by
    rw [← opens, Nat.add_assoc, ← List.drop_drop, shape, List.drop_succ_cons]
  rw [left, closingFrom?_opening] at found
  obtain ⟨offset', found', same'⟩ := Option.map_eq_some_iff.mp found
  obtain ⟨earlier, less, closes⟩ :=
    exists_closingFrom?_of_deeper (Int.le_refl 1) (show 1 < depth + 1 by omega) found'
  refine ⟨opening + skip + 1 + (earlier + 1), by omega, ?_⟩
  rw [arePartners_iff opens, matchingParenthesis?, opens, closingFrom?_opening, Int.zero_add,
    closes]
  rfl

end CrateAudit.Fix

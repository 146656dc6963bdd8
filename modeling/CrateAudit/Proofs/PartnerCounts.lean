/-
This file says which parenthesis closes another one by counts alone: from the opening one
up to it the text has equally many of both, and whatever the text begins with before that
has more opening ones. The search by depth finds this parenthesis wherever there is one,
and nothing elsewhere. Two pairs of parentheses lie apart, or one inside the other.
-/

import CrateAudit.Proofs.Partners
import Mathlib.Tactic.MkIffOfInductiveProp

namespace CrateAudit.Fix

/-- The text from one parenthesis up to and with another one. -/
def enclosedText (code : Line) (opening closing : Nat) : Line :=
  (code.drop opening).take (closing + 1 - opening)

/-- A closing parenthesis comes after an opening one, the text from one to the other has equally
many of both, and whatever this text begins with before its end has more opening ones. -/
structure ClosesParenthesis (code : Line) (opening closing : Nat) : Prop where
  after : opening < closing
  closes : code[closing]? = some ')'
  equal : (enclosedText code opening closing).count '(' =
    (enclosedText code opening closing).count ')'
  more : ∀ front, front <+: enclosedText code opening closing → front ≠ [] →
    front ≠ enclosedText code opening closing → front.count ')' < front.count '('

/-! ### Depths and counts -/

/-- A closing parenthesis is the first one to take a depth to zero: up to it the closing ones are
more by this depth, and at every earlier place they are not. -/
@[mk_iff]
structure ClosesFirst (depth : Nat) (code : Line) (offset : Nat) : Prop where
  closes : code[offset]? = some ')'
  equal : (code.take (offset + 1)).count ')' = (code.take (offset + 1)).count '(' + depth
  more : ∀ size ≤ offset, (code.take size).count ')' < (code.take size).count '(' + depth

variable {code line rest : Line} {character : Char} {depth deeper opening closing offset : Nat}

theorem not_closesFirst_of_zero : ¬ ClosesFirst 0 line offset := fun first =>
  absurd (first.more 0 (Nat.zero_le offset)) (Nat.lt_irrefl 0)

/-- Behind a character the depth is another one, by what the character opens or closes. -/
theorem closesFirst_cons_succ
    (shift : deeper + [character].count ')' = depth + 1 + [character].count '(') :
    ClosesFirst (depth + 1) (character :: rest) (offset + 1) ↔ ClosesFirst deeper rest offset := by
  have count (sought : Char) (size : Nat) : ((character :: rest).take (size + 1)).count sought =
      (rest.take size).count sought + [character].count sought := by
    rw [List.take_succ_cons, ← List.singleton_append, List.count_append, Nat.add_comm]
  rw [closesFirst_iff, closesFirst_iff, List.getElem?_cons_succ, count, count]
  refine and_congr_right' (and_congr (by omega) ⟨?_, ?_⟩) <;> intro more size near
  · have here := more (size + 1) (Nat.succ_le_succ near)
    rw [count, count] at here
    omega
  · cases size with
    | zero => exact Nat.succ_pos _
    | succ size =>
      have here := more size (Nat.le_of_succ_le_succ near)
      rw [count, count]
      omega

/-- The first character closes a depth only if it is a closing parenthesis, and only the depth
one. -/
theorem closesFirst_cons_zero :
    ClosesFirst (depth + 1) (character :: rest) 0 ↔ character = ')' ∧ depth = 0 := by
  constructor
  · rintro ⟨closes, equal, -⟩
    cases Option.some.inj closes
    exact ⟨rfl, by simpa using equal.symm⟩
  · rintro ⟨rfl, rfl⟩
    refine ⟨rfl, rfl, fun size near => ?_⟩
    rw [Nat.le_zero.mp near]
    exact Nat.one_pos

/-- The search finds the parenthesis that is the first to take the depth to zero. -/
theorem closingFrom?_eq_some_iff :
    closingFrom? ((depth : Int) + 1) line = some offset ↔ ClosesFirst (depth + 1) line offset := by
  induction line generalizing depth offset with
  | nil => exact iff_of_false (fun closes => nomatch closes) fun first => nomatch first.closes
  | cons character rest inductionHypothesis =>
    -- Unless this character is the one that is looked for, the search goes on behind it.
    have step {deeper : Nat} (apart : ¬ (character = ')' ∧ depth = 0))
        (shift : deeper + 1 + [character].count ')' = depth + 1 + [character].count '(') :
        (closingFrom? ((deeper : Int) + 1) rest).map (· + 1) = some offset ↔
          ClosesFirst (depth + 1) (character :: rest) offset := by
      cases offset with
      | zero => simp [closesFirst_cons_zero, apart]
      | succ offset =>
        rw [closesFirst_cons_succ shift, ← inductionHypothesis]
        simp
    by_cases isOpening : character = '('
    · subst isOpening
      rw [closingFrom?_opening, ← Int.natCast_succ]
      exact step (by simp) rfl
    by_cases isClosing : character = ')'
    · subst isClosing
      cases depth with
      | zero =>
        rw [Int.natCast_zero, Int.zero_add, closingFrom?_closing_one]
        cases offset with
        | zero => simp [closesFirst_cons_zero]
        | succ offset =>
          exact iff_of_false nofun fun first =>
            not_closesFirst_of_zero ((closesFirst_cons_succ rfl).mp first)
      | succ depth =>
        rw [closingFrom?_closing (by omega), Int.add_sub_cancel, Int.natCast_succ]
        exact step (by simp) rfl
    · rw [closingFrom?_other isOpening isClosing]
      exact step (by simp [isClosing]) (by simp [isOpening, isClosing])

/-! ### The closing parenthesis -/

theorem drop_eq_of_opening (opens : code[opening]? = some '(') :
    code.drop opening = '(' :: code.drop (opening + 1) := by
  obtain ⟨inside, character⟩ := List.getElem?_eq_some_iff.mp opens
  rw [List.drop_eq_getElem_cons inside, character]

/-- A shorter beginning of a text is so many of its first characters. -/
theorem prefix_take_and_ne_iff {front : Line} (inside : offset < line.length) :
    front <+: line.take (offset + 1) ∧ front ≠ line.take (offset + 1) ↔
      ∃ size ≤ offset, front = line.take size := by
  have size_take {size : Nat} (near : size ≤ offset + 1) : (line.take size).length = size :=
    List.length_take_of_le (Nat.le_trans near inside)
  constructor
  · rintro ⟨starts, shorter⟩
    have near := starts.length_le
    rw [size_take (Nat.le_refl _)] at near
    have whole := List.prefix_iff_eq_take.mp starts
    rw [List.take_take, Nat.min_eq_left near] at whole
    refine ⟨front.length, Nat.le_of_lt_succ (Nat.lt_of_le_of_ne near fun same => ?_), whole⟩
    rw [same] at whole
    exact shorter whole
  · rintro ⟨size, near, rfl⟩
    refine ⟨List.take_prefix_take_left (Nat.le_succ_of_le near), fun same => ?_⟩
    have sizes := congrArg List.length same
    rw [size_take (Nat.le_succ_of_le near), size_take (Nat.le_refl _)] at sizes
    omega

/-- What closes a parenthesis is what first takes the depth one to zero behind it. -/
theorem closesParenthesis_iff (opens : code[opening]? = some '(') :
    ClosesParenthesis code opening closing ↔
      ∃ offset, closing = opening + (offset + 1) ∧
        ClosesFirst 1 (code.drop (opening + 1)) offset := by
  have text (offset : Nat) : enclosedText code opening (opening + (offset + 1)) =
      '(' :: (code.drop (opening + 1)).take (offset + 1) := by
    rw [enclosedText, Nat.add_assoc, Nat.add_sub_cancel_left, drop_eq_of_opening opens,
      List.take_succ_cons]
  have character (offset : Nat) :
      code[opening + (offset + 1)]? = (code.drop (opening + 1))[offset]? := by
    rw [List.getElem?_drop, Nat.add_assoc, Nat.add_comm 1]
  constructor
  · rintro ⟨after, closes, equal, more⟩
    obtain ⟨offset, rfl⟩ := Nat.exists_eq_add_of_lt after
    rw [Nat.add_assoc] at closes equal more ⊢
    rw [text] at equal more
    rw [character] at closes
    refine ⟨offset, rfl, closes, by simpa using equal.symm, fun size near => ?_⟩
    have inside := (List.getElem?_eq_some_iff.mp closes).1
    obtain ⟨starts, shorter⟩ := (prefix_take_and_ne_iff inside).mpr ⟨size, near, rfl⟩
    have here := more ('(' :: (code.drop (opening + 1)).take size)
      (List.cons_prefix_cons.mpr ⟨rfl, starts⟩) (List.cons_ne_nil _ _)
      fun same => shorter (List.cons.inj same).2
    simpa using here
  · rintro ⟨offset, rfl, closes, equal, more⟩
    have inside := (List.getElem?_eq_some_iff.mp closes).1
    refine ⟨by omega, (character offset).trans closes, ?_, fun front starts filled shorter => ?_⟩
    · rw [text]
      simpa using equal.symm
    · rw [text] at starts shorter
      obtain rfl | ⟨inner, rfl, within⟩ := List.prefix_cons_iff.mp starts
      · contradiction
      obtain ⟨size, near, rfl⟩ := (prefix_take_and_ne_iff inside).mp
        ⟨within, fun same => shorter (congrArg _ same)⟩
      simpa using more size near

/-- The search finds what closes a parenthesis. -/
theorem matchingParenthesis?_eq_some_iff (opens : code[opening]? = some '(') :
    matchingParenthesis? code opening = some closing ↔ ClosesParenthesis code opening closing := by
  rw [closesParenthesis_iff opens, matchingParenthesis?, drop_eq_of_opening opens,
    closingFrom?_opening, Option.map_map, Option.map_eq_some_iff]
  refine exists_congr fun offset => ?_
  have search : closingFrom? (0 + 1) (code.drop (opening + 1)) = some offset ↔
      ClosesFirst 1 (code.drop (opening + 1)) offset := closingFrom?_eq_some_iff
  rw [search, and_comm, eq_comm]
  rfl

/-- A pair of parentheses that starts behind another one lies behind it or inside it. -/
theorem apart_or_inside {opening' closing' : Nat} (opens : code[opening]? = some '(')
    (opens' : code[opening']? = some '(') (before : opening < opening')
    (closes : matchingParenthesis? code opening = some closing)
    (closes' : matchingParenthesis? code opening' = some closing') :
    closing < opening' ∨ closing' < closing := by
  have partners := (arePartners_iff (drop_eq_of_opening opens)).mpr closes
  have partners' := (arePartners_iff (drop_eq_of_opening opens')).mpr closes'
  rcases Nat.lt_trichotomy closing opening' with behind | same | within
  · exact Or.inl behind
  · have character := partners.lt.2
    rw [same, opens'] at character
    exact absurd (Option.some.inj character) (by decide)
  · obtain ⟨other, less, found⟩ :=
      partners.exists_within (drop_eq_of_opening opens') before within
    exact Or.inr (partners'.unique found ▸ less)

/-- The search for what closes a parenthesis finds exactly the place up to which the text has
equally many opening and closing parentheses, and no shorter beginning of it as many closing ones;
it finds nothing exactly if there is no such place. Of two parentheses that are closed, the second
one is opened behind the pair of the first one or closed inside it. -/
theorem parentheses_close_where_counts_agree (code : Line) :
    (∀ opening, code[opening]? = some '(' →
      (∀ closing, matchingParenthesis? code opening = some closing ↔
        ClosesParenthesis code opening closing) ∧
      (matchingParenthesis? code opening = none ↔
        ∀ closing, ¬ ClosesParenthesis code opening closing)) ∧
    ∀ first second closing closing', code[first]? = some '(' → code[second]? = some '(' →
      first < second → matchingParenthesis? code first = some closing →
        matchingParenthesis? code second = some closing' →
          closing < second ∨ closing' < closing := by
  refine ⟨fun opening opens => ⟨fun closing => matchingParenthesis?_eq_some_iff opens, ?_⟩,
    fun first second closing closing' => apart_or_inside⟩
  rw [Option.eq_none_iff_forall_ne_some]
  exact forall_congr' fun closing => not_congr (matchingParenthesis?_eq_some_iff opens)

/-- One pair inside another, and a parenthesis behind them that stays open. -/
theorem parentheses_close_where_counts_agree_unclosedCall :
    let code := "f(a(b)c)(d".toList
    ClosesParenthesis code 1 7 ∧ ClosesParenthesis code 3 5 ∧ (7 < 3 ∨ 5 < 7) ∧
      ∀ closing, ¬ ClosesParenthesis code 8 closing := by
  intro code
  obtain ⟨found, nested⟩ := parentheses_close_where_counts_agree code
  exact ⟨((found 1 rfl).1 7).mp rfl, ((found 3 rfl).1 5).mp rfl,
    nested 1 3 7 5 rfl rfl (by decide) rfl rfl, (found 8 rfl).2.mp rfl⟩

end CrateAudit.Fix

/-
This file says which values have the tag of a kind as their text: texts alone. Numbers and
moments are written without capital letters, a list or a table starts with its bracket, and
nothing and the truth values have words of their own.
-/

import CrateAudit.Data.Value
import CrateAudit.Violation
import Mathlib.Data.List.Basic

namespace CrateAudit

/-! ### Texts without capital letters -/

/-- No character is a capital letter of ASCII. -/
def Text.LacksCapitals (text : List Char) : Prop :=
  ∀ character ∈ text, character.isUpper = false

instance (text : List Char) : Decidable (Text.LacksCapitals text) :=
  List.decidableBAll (fun character : Char => character.isUpper = false) text

namespace Text.LacksCapitals

theorem append {first second : List Char} (lacks : LacksCapitals first)
    (lacks' : LacksCapitals second) : LacksCapitals (first ++ second) := by
  intro character member
  rcases List.mem_append.mp member with inFirst | inSecond
  · exact lacks character inFirst
  · exact lacks' character inSecond

theorem cons {first : Char} {rest : List Char} (small : first.isUpper = false)
    (lacks : LacksCapitals rest) : LacksCapitals (first :: rest) :=
  List.forall_mem_cons.mpr ⟨small, lacks⟩

theorem of_subset {text text' : List Char} (lacks : LacksCapitals text) (subset : text' ⊆ text) :
    LacksCapitals text' :=
  fun character member => lacks character (subset member)

theorem zeros (count : Nat) : LacksCapitals (List.replicate count '0') := by
  intro character member
  rw [List.eq_of_mem_replicate member]
  rfl

theorem digits (number : Nat) : LacksCapitals (Nat.toDigits 10 number) := by
  intro character member
  have digit := Nat.isDigit_of_mem_toDigits (by decide) (by decide) member
  simp only [Char.isDigit, Bool.and_eq_true, decide_eq_true_eq] at digit
  have below : character.val < 'A'.val := Nat.lt_of_le_of_lt digit.2 (by decide)
  refine Bool.eq_false_iff.mpr fun capital => ?_
  have above : 'A'.val ≤ character.val := (of_decide_eq_true capital).1
  exact absurd above (Nat.not_le.mpr below)

end Text.LacksCapitals

open Text (LacksCapitals)

theorem Text.lacksCapitals_toString (number : Int) : LacksCapitals (toString number).toList := by
  cases number with
  | ofNat number =>
    have digits : toString (Int.ofNat number) = String.ofList (Nat.toDigits 10 number) := rfl
    rw [digits, String.toList_ofList]
    exact LacksCapitals.digits number
  | negSucc number =>
    have digits : toString (Int.negSucc number) =
        "-" ++ String.ofList (Nat.toDigits 10 (number + 1)) := rfl
    rw [digits, String.toList_append]
    refine .append (by decide) ?_
    rw [String.toList_ofList]
    exact LacksCapitals.digits (number + 1)

/-! ### Numbers with a point -/

namespace Binary64

theorem dropZeros_subset (steps : Nat) (digits : List Char) (power : Int) :
    (dropZeros steps digits power).1 ⊆ digits := by
  fun_induction dropZeros steps digits power with
  | case1 => exact List.Subset.refl _
  | case2 _ _ _ _ inductionHypothesis => exact List.subset_cons_of_subset _ inductionHypothesis
  | case3 => exact List.Subset.refl _

theorem lacksCapitals_exponentText (power : Int) : LacksCapitals (exponentText power) := by
  refine .cons ?_ (.append (.zeros _) (.digits _))
  split
  · rfl
  · rfl

theorem lacksCapitals_layOut {digits : List Char} (lacks : LacksCapitals digits) (point : Int) :
    LacksCapitals (layOut digits point) := by
  have taken (count : Nat) : LacksCapitals (digits.take count) :=
    lacks.of_subset (List.take_subset _ _)
  have dropped (count : Nat) : LacksCapitals (digits.drop count) :=
    lacks.of_subset (List.drop_subset _ _)
  rw [layOut]
  split
  · split
    · exact .append (.append (by decide) (.zeros _)) lacks
    · split
      · exact .append (.append lacks (.zeros _)) (by decide)
      · exact .append (taken _) (.cons rfl (dropped _))
  · refine .append (.append (taken 1) ?_) (.cons rfl (lacksCapitals_exponentText _))
    split
    · exact fun _ member => absurd member List.not_mem_nil
    · exact .cons rfl (dropped 1)

theorem lacksCapitals_text (number : Binary64) : LacksCapitals number.text.toList := by
  cases number with
  | undefined => decide
  | infinite negative => cases negative <;> decide
  | finite negative mantissa exponent =>
    have digits (number : Nat) (power : Int) : LacksCapitals
        (dropZeros 20 (Nat.toDigits 10 number).reverse power).1.reverse := by
      refine (LacksCapitals.digits number).of_subset fun character member => ?_
      exact List.mem_reverse.mp (dropZeros_subset _ _ _ (List.mem_reverse.mp member))
    have body : LacksCapitals (if mantissa == 0 then "0.0".toList else
        let found := shortest mantissa exponent
        let trimmed := dropZeros 20 (Nat.toDigits 10 found.1).reverse found.2
        let digits := trimmed.1.reverse
        layOut digits (digits.length + trimmed.2)) := by
      split
      · decide
      · exact lacksCapitals_layOut (digits _ _) _
    rw [text, String.toList_ofList]
    split
    · exact .cons rfl body
    · exact body

end Binary64

/-! ### Dates and times -/

namespace Moment

theorem lacksCapitals_padded (width number : Nat) : LacksCapitals (padded width number).toList := by
  rw [padded, String.toList_ofList]
  exact .append (.zeros _) (.digits _)

theorem lacksCapitals_dateText (date : Date) : LacksCapitals (dateText date).toList := by
  simp only [dateText, String.toList_append]
  exact .append (.append (.append (.append (lacksCapitals_padded _ _) (by decide))
    (lacksCapitals_padded _ _)) (by decide)) (lacksCapitals_padded _ _)

theorem lacksCapitals_timeText (time : TimeOfDay) : LacksCapitals (timeText time).toList := by
  have seconds : LacksCapitals
      (if time.microsecond == 0 then "" else "." ++ padded 6 time.microsecond).toList := by
    split
    · decide
    · rw [String.toList_append]
      exact .append (by decide) (lacksCapitals_padded _ _)
  simp only [timeText, String.toList_append]
  exact .append (.append (.append (.append (.append (lacksCapitals_padded _ _) (by decide))
    (lacksCapitals_padded _ _)) (by decide)) (lacksCapitals_padded _ _)) seconds

theorem lacksCapitals_offsetText (minutes : Int) : LacksCapitals (offsetText minutes).toList := by
  have sign : LacksCapitals (if minutes < 0 then "-" else "+").toList := by
    split
    · decide
    · decide
  simp only [offsetText, String.toList_append]
  exact .append (.append (.append sign (lacksCapitals_padded _ _)) (by decide))
    (lacksCapitals_padded _ _)

theorem lacksCapitals_text (moment : Moment) : LacksCapitals moment.text.toList := by
  have both (date : Date) (time : TimeOfDay) :
      LacksCapitals (dateText date ++ " " ++ timeText time).toList := by
    simp only [String.toList_append]
    exact .append (.append (lacksCapitals_dateText date) (by decide)) (lacksCapitals_timeText time)
  cases moment with
  | day date => exact lacksCapitals_dateText date
  | clock time => exact lacksCapitals_timeText time
  | both date time => exact both date time
  | universal date time =>
    rw [text, String.toList_append]
    exact .append (both date time) (by decide)
  | offset date time minutes =>
    rw [text, String.toList_append]
    exact .append (both date time) (lacksCapitals_offsetText minutes)

end Moment

/-! ### Tags -/

namespace Kind

theorem ofTag?_eq_some {text : String} {kind : Kind} :
    ofTag? text = some kind ↔ text = kind.tag ∨ text = kind.constantName := by
  constructor
  · intro found
    have named := List.find?_some found
    simpa only [Bool.or_eq_true, beq_iff_eq] using named
  · rintro (rfl | rfl)
    · exact ofTag?_tag kind
    · exact ofTag?_constantName kind

/-- In either spelling, a tag starts with a capital letter. -/
theorem exists_capital_of_ofTag? {text : String} {kind : Kind} (found : ofTag? text = some kind) :
    ∃ first rest, text.toList = first :: rest ∧ first.isUpper = true := by
  rcases ofTag?_eq_some.mp found with rfl | rfl
  · cases kind <;> exact ⟨_, _, rfl, rfl⟩
  · cases kind <;> exact ⟨_, _, rfl, rfl⟩

/-- A text that does not start with a capital letter is no tag. -/
theorem ofTag?_eq_none {text : String}
    (small : ∀ first ∈ text.toList.head?, first.isUpper = false) : ofTag? text = none := by
  rw [Option.eq_none_iff_forall_ne_some]
  intro kind found
  obtain ⟨first, rest, letters, capital⟩ := exists_capital_of_ofTag? found
  have small' := small first (by rw [letters, List.head?_cons, Option.mem_some_iff])
  exact Bool.false_ne_true (small'.symm.trans capital)

theorem ofTag?_eq_none_of_lacksCapitals {text : String} (lacks : LacksCapitals text.toList) :
    ofTag? text = none :=
  ofTag?_eq_none fun first member => lacks first (List.mem_of_mem_head? member)

end Kind

/-- A value that is no text has no text that is a tag. -/
theorem Value.ofTag?_text_eq_none {value : Value} (noText : ∀ text, value ≠ .string text) :
    Kind.ofTag? value.text = none := by
  cases value with
  | null => decide
  | boolean value => cases value <;> decide
  | integer number =>
    exact Kind.ofTag?_eq_none_of_lacksCapitals (Text.lacksCapitals_toString number)
  | float number => exact Kind.ofTag?_eq_none_of_lacksCapitals number.lacksCapitals_text
  | string text => exact absurd rfl (noText text)
  | moment moment => exact Kind.ofTag?_eq_none_of_lacksCapitals moment.lacksCapitals_text
  | list items =>
    refine Kind.ofTag?_eq_none fun first member => ?_
    simp [text, quoted, String.toList_append] at member
    subst member
    rfl
  | table entries =>
    refine Kind.ofTag?_eq_none fun first member => ?_
    simp [text, quoted, String.toList_append] at member
    subst member
    rfl

/-- The values that name a kind are texts, in either spelling. -/
theorem Value.ofTag?_text_eq_some {value : Value} {kind : Kind} :
    Kind.ofTag? value.text = some kind ↔
      value = .string kind.tag ∨ value = .string kind.constantName := by
  constructor
  · intro found
    obtain ⟨text, rfl⟩ : ∃ text, value = .string text := by
      by_contra noText
      rw [not_exists] at noText
      cases (ofTag?_text_eq_none noText).symm.trans found
    rw [text_string] at found
    exact (Kind.ofTag?_eq_some.mp found).imp (congrArg Value.string) (congrArg Value.string)
  · rintro (rfl | rfl)
    · rw [text_string, Kind.ofTag?_tag]
    · rw [text_string, Kind.ofTag?_constantName]

end CrateAudit

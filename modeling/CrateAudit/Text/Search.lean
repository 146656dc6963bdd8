/-
This file finds one text inside another: where it occurs, overlapping occurrences
included, and what stands before or after the first and the last of them.
-/

namespace CrateAudit.Text

/-- The offsets at which `sought` occurs, when the first character of the text has
the offset `offset`. -/
def occurrencesFrom (sought : List Char) (offset : Nat) : List Char → List Nat
  | [] => if sought.isEmpty then [offset] else []
  | character :: rest =>
    if sought.isPrefixOf (character :: rest) then
      offset :: occurrencesFrom sought (offset + 1) rest
    else occurrencesFrom sought (offset + 1) rest

/-- Every offset at which `sought` occurs, in ascending order. Occurrences may overlap,
and the empty text occurs everywhere, the end included. -/
def occurrences (sought text : List Char) : List Nat :=
  occurrencesFrom sought 0 text

/-- The first offset at which `sought` occurs. -/
def find? (sought : List Char) : List Char → Option Nat
  | [] => if sought.isEmpty then some 0 else none
  | character :: rest =>
    if sought.isPrefixOf (character :: rest) then some 0 else (find? sought rest).map (· + 1)

/-- Whether `sought` occurs. -/
def includes (sought text : List Char) : Bool :=
  (find? sought text).isSome

/-- What stands before the first occurrence of `stop`, the whole text if there is none. -/
def before (stop text : List Char) : List Char :=
  match find? stop text with
  | some offset => text.take offset
  | none => text

/-- What follows the first occurrence of `start`. -/
def after? (start text : List Char) : Option (List Char) :=
  (find? start text).map fun offset => text.drop (offset + start.length)

/-- What follows the last occurrence of `separator`, the whole text if there is none. -/
def afterLast (separator : Char) (text : List Char) : List Char :=
  (text.reverse.takeWhile (· != separator)).reverse

/-- What stands before the first `separator`, the whole text if there is none. -/
def upTo (separator : Char) (text : List Char) : List Char :=
  text.takeWhile (· != separator)

/-! ### Facts about occurrences -/

theorem mem_occurrencesFrom {sought : List Char} {offset at' : Nat} {text : List Char} :
    at' ∈ occurrencesFrom sought offset text ↔
      offset ≤ at' ∧ at' ≤ offset + text.length ∧ sought <+: text.drop (at' - offset) := by
  induction text generalizing offset with
  | nil =>
    simp only [occurrencesFrom, List.length_nil, Nat.add_zero, List.drop_nil,
      List.prefix_nil, List.isEmpty_iff]
    split
    · simp_all; omega
    · simp_all
  | cons character rest inductionHypothesis =>
    have shift (h : offset + 1 ≤ at') :
        (character :: rest).drop (at' - offset) = rest.drop (at' - (offset + 1)) := by
      rw [show at' - offset = (at' - (offset + 1)) + 1 by omega, List.drop_succ_cons]
    unfold occurrencesFrom
    by_cases here : at' = offset
    · subst here
      have apart : at' ∉ occurrencesFrom sought (at' + 1) rest := by
        rw [inductionHypothesis]; omega
      by_cases starts : sought.isPrefixOf (character :: rest) = true
      · simp [starts, List.isPrefixOf_iff_prefix.mp starts]
      · simp only [starts, if_false, apart, Nat.sub_self, List.drop_zero, Bool.false_eq_true]
        simpa [List.isPrefixOf_iff_prefix] using starts
    · have same : at' ∈ (if sought.isPrefixOf (character :: rest) = true then
          offset :: occurrencesFrom sought (offset + 1) rest
        else occurrencesFrom sought (offset + 1) rest) ↔
          at' ∈ occurrencesFrom sought (offset + 1) rest := by
        split <;> simp [here]
      rw [same, inductionHypothesis]
      constructor
      · rintro ⟨low, high, starts⟩
        refine ⟨by omega, by simp only [List.length_cons]; omega, ?_⟩
        rwa [shift low]
      · rintro ⟨low, high, starts⟩
        have low' : offset + 1 ≤ at' := by omega
        refine ⟨low', by simp only [List.length_cons] at high; omega, ?_⟩
        rwa [shift low'] at starts

/-- The occurrences are exactly the offsets, the end included, at which the text
continues with `sought`. -/
theorem mem_occurrences {sought text : List Char} {offset : Nat} :
    offset ∈ occurrences sought text ↔ offset ≤ text.length ∧ sought <+: text.drop offset := by
  simp [occurrences, mem_occurrencesFrom]

end CrateAudit.Text

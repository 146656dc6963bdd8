/-
This file finds the line at which the block that opens on a given line closes, by
counting braces in code. Input that closes too little never fails: the block then
reaches to the last line.
-/

import CrateAudit.Rust.Lexing

namespace CrateAudit.Rust

/-- The depth of open braces after some code; once it has come to zero it stays there. -/
def depthAfter : Nat → Line → Nat
  | 0, _ => 0
  | depth, [] => depth
  | depth + 1, character :: rest =>
    if character = '\x7b' then depthAfter (depth + 2) rest
    else if character = '\x7d' then depthAfter depth rest
    else depthAfter (depth + 1) rest

/-- How many lines further on the depth comes to zero. -/
def closingLine? (depth : Nat) : List Line → Option Nat
  | [] => none
  | line :: rest =>
    match depthAfter depth (codeOnly line) with
    | 0 => some 0
    | deeper => (closingLine? deeper rest).map (· + 1)

/-- How many lines after the first one the block closes that the first one opens. A line that
opens no block is its own end. -/
def blockLength? : List Line → Option Nat
  | [] => some 0
  | line :: rest =>
    match Text.after? ['\x7b'] (codeOnly line) with
    | none => some 0
    | some tail =>
      match depthAfter 1 tail with
      | 0 => some 0
      | depth => (closingLine? depth rest).map (· + 1)

/-- The index of the line at which the block of the line `index` closes. -/
def blockEnd (lines : List Line) (index : Nat) : Nat :=
  match blockLength? (lines.drop index) with
  | some length => index + length
  | none => lines.length - 1

/-- The same for an index that counts from the end when negative. The search then goes on over
all the lines again. Without lines the end is zero; otherwise there is none for an index outside
the lines. -/
def blockEnd? (lines : List Line) (index : Int) : Option Int :=
  if lines.isEmpty then some 0
  else if 0 ≤ index then
    if index < lines.length then some (blockEnd lines index.toNat) else none
  else if 0 ≤ index + lines.length then
    some <| match blockLength? (lines.drop (index + lines.length).toNat ++ lines) with
      | some length => index + length
      | none => (lines.length : Int) - 1
  else none

theorem depthAfter_zero (code : Line) : depthAfter 0 code = 0 := by
  cases code <;> rfl

/-- Depth is counted piece by piece. -/
theorem depthAfter_append (depth : Nat) (first second : Line) :
    depthAfter depth (first ++ second) = depthAfter (depthAfter depth first) second := by
  induction first generalizing depth with
  | nil =>
    cases depth with
    | zero => simp [depthAfter_zero]
    | succ depth => rfl
  | cons character rest inductionHypothesis =>
    cases depth with
    | zero => simp [depthAfter_zero]
    | succ depth =>
      simp only [List.cons_append, depthAfter]
      split
      · exact inductionHypothesis _
      · split
        · exact inductionHypothesis _
        · exact inductionHypothesis _

theorem closingLine?_lt {depth offset : Nat} {lines : List Line}
    (closes : closingLine? depth lines = some offset) : offset < lines.length := by
  induction lines generalizing depth offset with
  | nil => cases closes
  | cons line rest inductionHypothesis =>
    unfold closingLine? at closes
    split at closes
    · cases closes; simp
    · obtain ⟨later, found, rfl⟩ := Option.map_eq_some_iff.mp closes
      simpa using inductionHypothesis found

theorem blockLength?_lt {lines : List Line} {length : Nat} (nonempty : lines ≠ [])
    (closes : blockLength? lines = some length) : length < lines.length := by
  cases lines with
  | nil => contradiction
  | cons line rest =>
    simp only [blockLength?] at closes
    cases opens : Text.after? ['\x7b'] (codeOnly line) with
    | none =>
      rw [opens] at closes
      cases closes
      simp
    | some tail =>
      rw [opens] at closes
      simp only at closes
      split at closes
      · cases closes
        simp
      · obtain ⟨later, found, rfl⟩ := Option.map_eq_some_iff.mp closes
        simpa using closingLine?_lt found

/-- The end is a line of the list, not before the start. -/
theorem blockEnd_within {lines : List Line} {index : Nat} (exists_ : index < lines.length) :
    index ≤ blockEnd lines index ∧ blockEnd lines index < lines.length := by
  unfold blockEnd
  split
  · rename_i length closes
    have bound := blockLength?_lt (by simp [List.drop_eq_nil_iff]; omega) closes
    rw [List.length_drop] at bound
    omega
  · omega

/-- A line of the list has an end. -/
theorem blockEnd?_of_lt {lines : List Line} {index : Nat} (exists_ : index < lines.length) :
    blockEnd? lines index = some (blockEnd lines index : Int) := by
  have filled : lines.isEmpty = false :=
    List.isEmpty_eq_false_iff.mpr (List.length_pos_iff.mp (by omega))
  rw [blockEnd?, filled, if_neg Bool.false_ne_true, if_pos (Int.natCast_nonneg index),
    if_pos (Int.ofNat_lt.mpr exists_)]
  rfl

end CrateAudit.Rust

/-
This file says that items do not partly overlap. Their ends are found by separate counts,
each from its own first opening brace on. Where the second count begins the first one is at
some depth, so from there on it is deeper by at least one, and where it comes to zero the
second one has been there before. So an item whose signature ends before the last line of an
item above it ends on that line or before, also where braces are missing.
-/

import CrateAudit.Proofs.BlockEnds

namespace CrateAudit.Rust

variable {lines : List Line}

/-! ### Two counts -/

/-- A block that opens while another one is open is closed where that one is. -/
theorem blockDepth_eq_zero_of_append {before own rest : Line} (open_ : '\x7b' ∈ before)
    (opens : '\x7b' ∈ own) (deep : blockDepth (before ++ own) ≠ 0)
    (zero : blockDepth (before ++ (own ++ rest)) = 0) : blockDepth (own ++ rest) = 0 := by
  obtain ⟨front, tail, rfl, apart⟩ := List.eq_append_cons_of_mem opens
  rw [blockDepth_append open_, depthAfter_append] at deep zero
  rw [depthAfter_append] at zero
  rw [blockDepth_append opens, blockDepth_append_cons apart, ← depthAfter_append]
  -- The outer block is still open where the inner one opens, else it would be closed after `own`.
  obtain ⟨depth, here⟩ : ∃ depth, depthAfter (blockDepth before) front = depth + 1 := by
    refine Nat.exists_eq_add_one_of_ne_zero fun closed => deep ?_
    rw [closed, depthAfter_zero]
  rw [here, ← depthAfter_append] at zero
  exact depthAfter_eq_zero_of_le (show 1 ≤ depth + 2 by omega) zero

/-- A block that opens on a line before the last one of an open block ends on its last line or
before. -/
theorem blockEnd_le_of_lt {outer inner : Nat} (after : outer < inner)
    (inside : inner < lines.length) (before : inner < blockEnd lines outer) :
    blockEnd lines inner ≤ blockEnd lines outer := by
  have bounds := @blockEnd_within lines outer (by omega)
  have here : lines[outer]? = some lines[outer] := List.getElem?_eq_getElem _
  have here' : lines[inner]? = some lines[inner] := List.getElem?_eq_getElem inside
  by_cases opens' : '\x7b' ∈ codeOnly lines[inner]
  · by_cases more : blockEnd lines outer + 1 < lines.length
    · have opens : '\x7b' ∈ codeOnly lines[outer] := by
        refine Decidable.byContradiction fun apart => ?_
        rw [blockEnd_of_not_opening here apart] at before
        omega
      have zero := blockDepth_of_blockEnd_le here opens bounds.1 more (Nat.le_refl _)
      have deep : blockDepth (codeBetween lines outer (inner + 1)) ≠ 0 := fun closed =>
        Nat.not_le_of_lt before
          (blockEnd_le_of_blockDepth here opens (Nat.le_of_lt after) inside closed)
      have own := codeBetween_succ here'
      rw [codeBetween_append (Nat.le_of_lt after) (Nat.le_add_right inner 1), own] at deep
      rw [codeBetween_append (Nat.le_of_lt after) (by omega),
        codeBetween_append (Nat.le_add_right inner 1) (by omega), own] at zero
      have closed := blockDepth_eq_zero_of_append (opening_mem_codeBetween here opens after) opens'
        deep zero
      rw [← own, ← codeBetween_append (Nat.le_add_right inner 1) (by omega)] at closed
      exact blockEnd_le_of_blockDepth here' opens' (Nat.le_of_lt before) bounds.2 closed
    · have last := blockEnd_within inside
      omega
  · rw [blockEnd_of_not_opening here' opens']
    exact Nat.le_of_lt before

/-! ### Signatures in order -/

/-- A signature that starts later does not end earlier. -/
theorem braceIndex_le_of_le {first second : Nat} (order : first ≤ second)
    (inside : second < lines.length) :
    (signatureAt lines first).braceIndex ≤ (signatureAt lines second).braceIndex := by
  induction second, order using Nat.le_induction with
  | base => exact Int.le_refl _
  | succ second _ inductionHypothesis =>
    have earlier : second < lines.length := Nat.lt_of_succ_lt inside
    refine Int.le_trans (inductionHypothesis earlier) ?_
    by_cases ends : endsSignature lines[second] = true
    · have later := (signatureAt_braceIndex inside).1
      rw [braceIndex_of_endsSignature earlier ends]
      omega
    · exact Int.le_of_eq (braceIndex_succ earlier ends)

/-- An item whose signature ends before the last line of an item above it ends there or before. -/
theorem itemEnd_le_of_braceIndex_lt {outer inner : Nat} (order : outer ≤ inner)
    (inside : inner < lines.length)
    (before : (signatureAt lines inner).braceIndex < itemEnd lines outer) :
    itemEnd lines inner ≤ itemEnd lines outer := by
  have bounds := signatureAt_braceIndex (Nat.lt_of_le_of_lt order inside)
  have bounds' := signatureAt_braceIndex inside
  rcases Int.le_iff_lt_or_eq.mp (braceIndex_le_of_le order inside) with after | same
  · rw [itemEnd] at before
    exact blockEnd_le_of_lt (by omega) (by omega) (by omega)
  · rw [itemEnd, itemEnd, same]

theorem covers_iff_of_functionAt? {start : Nat} {function : FunctionSpan}
    (located : functionAt? lines start = some function) (index : Nat) :
    function.covers index = true ↔ start ≤ index ∧ index ≤ itemEnd lines start := by
  rw [functionAt?] at located
  split at located
  · obtain ⟨name, -, rfl⟩ := Option.map_eq_some_iff.mp located
    simp [FunctionSpan.covers]
  · cases located

/-- Both ends are found. If the signature of the second item ends before the last line of the first
one, the second item ends there or before; so a function that is located there lies within the one
that is located at the first item. -/
theorem items_nest {outer inner : Nat} (order : outer ≤ inner) (inside : inner < lines.length) :
    ∃ outerEnd innerEnd : Nat,
      blockEnd? lines (signatureAt lines outer).braceIndex = some (outerEnd : Int) ∧
        blockEnd? lines (signatureAt lines inner).braceIndex = some (innerEnd : Int) ∧
        ((signatureAt lines inner).braceIndex < outerEnd →
          innerEnd ≤ outerEnd ∧
            ∀ function nested, functionAt? lines outer = some function →
              functionAt? lines inner = some nested →
                ∀ index, nested.covers index = true → function.covers index = true) := by
  refine ⟨itemEnd lines outer, itemEnd lines inner,
    blockEnd?_braceIndex (Nat.lt_of_le_of_lt order inside), blockEnd?_braceIndex inside,
    fun before => ?_⟩
  have ends := itemEnd_le_of_braceIndex_lt order inside before
  refine ⟨ends, fun function nested located located' index covered => ?_⟩
  rw [covers_iff_of_functionAt? located'] at covered
  rw [covers_iff_of_functionAt? located]
  exact ⟨Nat.le_trans order covered.1, Nat.le_trans covered.2 ends⟩

/-- An inner function that opens on a line which first closes a block of the outer one. -/
def closingFirstLines : List Line :=
  ["fn outer() \x7b \x7b", "\x7d fn inner() \x7b", "\x7d", "\x7d"].map String.toList

theorem items_nest_closingFirstLines :
    0 ≤ 1 ∧ 1 < closingFirstLines.length ∧
      (signatureAt closingFirstLines 1).braceIndex < itemEnd closingFirstLines 0 ∧
      ∃ outerEnd innerEnd : Nat,
        blockEnd? closingFirstLines (signatureAt closingFirstLines 0).braceIndex =
            some (outerEnd : Int) ∧
          blockEnd? closingFirstLines (signatureAt closingFirstLines 1).braceIndex =
            some (innerEnd : Int) ∧
          ((signatureAt closingFirstLines 1).braceIndex < outerEnd →
            innerEnd ≤ outerEnd ∧
              ∀ function nested, functionAt? closingFirstLines 0 = some function →
                functionAt? closingFirstLines 1 = some nested →
                  ∀ index, nested.covers index = true → function.covers index = true) :=
  ⟨by decide, by decide, by decide +kernel, items_nest (by decide) (by decide)⟩

end CrateAudit.Rust

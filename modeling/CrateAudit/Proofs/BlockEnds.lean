/-
This file says where a block ends without counting depth line by line. The code of the
lines is joined into one text; a closing brace closes the block if from the first opening
brace up to it the text has equally many of both. The block ends on the line of the first
closing brace that does so, and on the last line if there is none.
-/

import CrateAudit.Rust.FunctionSpan
import Mathlib.Order.Bounds.Basic
import Mathlib.Tactic.MkIffOfInductiveProp

namespace CrateAudit

theorem Text.after?_append_cons {stop : Char} {front : Line} (apart : stop ∉ front)
    (rest : Line) : after? [stop] (front ++ stop :: rest) = some rest := by
  induction front with
  | nil => simp [after?, find?]
  | cons character front inductionHypothesis =>
    rw [List.mem_cons, not_or] at apart
    have later := inductionHypothesis apart.2
    obtain ⟨offset, found, left⟩ := Option.map_eq_some_iff.mp later
    have passed : find? [stop] (character :: (front ++ stop :: rest)) = some (offset + 1) := by
      rw [find?, found]
      simp [apart.1]
    rw [List.cons_append, after?, passed]
    exact congrArg some left

theorem Text.after?_of_not_mem {stop : Char} {code : Line} (apart : stop ∉ code) :
    after? [stop] code = none := by
  induction code with
  | nil => rfl
  | cons character code inductionHypothesis =>
    rw [List.mem_cons, not_or] at apart
    have none : find? [stop] code = none := Option.map_eq_none_iff.mp (inductionHypothesis apart.2)
    rw [after?, find?, none]
    simp [apart.1]

namespace Rust

/-! ### Closing braces -/

/-- The text from its first opening brace up to and with the character at an offset. -/
def blockUpTo (code : Line) (offset : Nat) : Line :=
  (code.take (offset + 1)).dropWhile (· ≠ '\x7b')

/-- A closing brace closes the block that the first opening brace opens: from there up to it the
text has equally many of both. -/
structure ClosesBlock (code : Line) (offset : Nat) : Prop where
  closing : code[offset]? = some '\x7d'
  opened : '\x7b' ∈ blockUpTo code offset
  equal : (blockUpTo code offset).count '\x7b' = (blockUpTo code offset).count '\x7d'

/-- The code of the lines from one up to before another, joined. -/
def codeBetween (lines : List Line) (first limit : Nat) : Line :=
  ((lines.drop first).take (limit - first)).flatMap codeOnly

/-- An offset in the joined code of the lines from one on is that of a character on another. -/
def StandsOn (lines : List Line) (first last offset : Nat) : Prop :=
  ∃ line inner, lines[last]? = some line ∧ inner < (codeOnly line).length ∧
    offset = (codeBetween lines first last).length + inner

/-! ### Counting depth -/

/-- A closing brace takes a depth to zero: up to it the closing braces are more by this depth. -/
@[mk_iff]
structure ClosesDepth (depth : Nat) (code : Line) (offset : Nat) : Prop where
  closing : code[offset]? = some '\x7d'
  more : (code.take (offset + 1)).count '\x7d' = (code.take (offset + 1)).count '\x7b' + depth

variable {code front rest first second : Line} {depth deeper offset : Nat}

theorem depthAfter_opening (depth : Nat) (rest : Line) :
    depthAfter (depth + 1) ('\x7b' :: rest) = depthAfter (depth + 2) rest := rfl

theorem depthAfter_closing (depth : Nat) (rest : Line) :
    depthAfter (depth + 1) ('\x7d' :: rest) = depthAfter depth rest := rfl

theorem depthAfter_other {character : Char} (noOpening : character ≠ '\x7b')
    (noClosing : character ≠ '\x7d') (depth : Nat) (rest : Line) :
    depthAfter (depth + 1) (character :: rest) = depthAfter (depth + 1) rest := by
  rw [depthAfter, if_neg noOpening, if_neg noClosing]

theorem closesDepth_opening :
    ClosesDepth depth ('\x7b' :: rest) (offset + 1) ↔ ClosesDepth (depth + 1) rest offset := by
  rw [closesDepth_iff, closesDepth_iff, List.take_succ_cons, List.count_cons_self,
    List.count_cons_of_ne (by decide)]
  exact and_congr_right' (by omega)

theorem closesDepth_closing :
    ClosesDepth (depth + 1) ('\x7d' :: rest) (offset + 1) ↔ ClosesDepth depth rest offset := by
  rw [closesDepth_iff, closesDepth_iff, List.take_succ_cons, List.count_cons_self,
    List.count_cons_of_ne (by decide)]
  exact and_congr_right' (by omega)

theorem closesDepth_other {character : Char} (noOpening : character ≠ '\x7b')
    (noClosing : character ≠ '\x7d') :
    ClosesDepth depth (character :: rest) (offset + 1) ↔ ClosesDepth depth rest offset := by
  rw [closesDepth_iff, closesDepth_iff, List.take_succ_cons, List.count_cons_of_ne noOpening,
    List.count_cons_of_ne noClosing]
  rfl

/-- At the first character only a closing brace closes, and only the depth one. -/
theorem closesDepth_zero {character : Char} :
    ClosesDepth depth (character :: rest) 0 ↔ character = '\x7d' ∧ depth = 1 := by
  constructor
  · rintro ⟨closing, more⟩
    cases Option.some.inj closing
    exact ⟨rfl, by simpa using more.symm⟩
  · rintro ⟨rfl, rfl⟩
    exact ⟨rfl, rfl⟩

/-- Counting comes to zero exactly if some closing brace takes the depth there. -/
theorem depthAfter_eq_zero_iff (depth : Nat) (code : Line) :
    depthAfter (depth + 1) code = 0 ↔ ∃ offset, ClosesDepth (depth + 1) code offset := by
  induction code generalizing depth with
  | nil => exact iff_of_false (Nat.succ_ne_zero depth) fun ⟨_, closes⟩ => nomatch closes.closing
  | cons character rest inductionHypothesis =>
    rw [← Nat.or_exists_add_one, closesDepth_zero]
    by_cases opening : character = '\x7b'
    · rw [opening, depthAfter_opening, inductionHypothesis]
      simp [closesDepth_opening]
    by_cases closing : character = '\x7d'
    · rw [closing, depthAfter_closing]
      cases depth with
      | zero => simp [depthAfter_zero]
      | succ depth =>
        rw [inductionHypothesis]
        simp [closesDepth_closing]
    · rw [depthAfter_other opening closing, inductionHypothesis]
      simp [closesDepth_other opening closing, closing]

/-- Where a depth comes to zero, a lesser one does. -/
theorem depthAfter_eq_zero_of_le (less : depth ≤ deeper) (zero : depthAfter deeper code = 0) :
    depthAfter depth code = 0 := by
  induction code generalizing depth deeper with
  | nil =>
    cases deeper with
    | zero => rw [Nat.le_zero.mp less]; rfl
    | succ deeper => cases zero
  | cons character rest inductionHypothesis =>
    cases depth with
    | zero => rfl
    | succ depth =>
      obtain ⟨deeper, rfl⟩ := Nat.exists_eq_add_one_of_ne_zero (Nat.ne_zero_of_lt less)
      by_cases opening : character = '\x7b'
      · rw [opening, depthAfter_opening] at zero ⊢
        exact inductionHypothesis (by omega) zero
      by_cases closing : character = '\x7d'
      · rw [closing, depthAfter_closing] at zero ⊢
        exact inductionHypothesis (by omega) zero
      · rw [depthAfter_other opening closing] at zero ⊢
        exact inductionHypothesis less zero

/-! ### The depth of a block -/

/-- The depth of open braces after a text, from its first opening brace on. -/
def blockDepth (code : Line) : Nat :=
  match Text.after? ['\x7b'] code with
  | none => 0
  | some rest => depthAfter 1 rest

theorem blockDepth_append_cons (apart : '\x7b' ∉ front) (rest : Line) :
    blockDepth (front ++ '\x7b' :: rest) = depthAfter 1 rest := by
  rw [blockDepth, Text.after?_append_cons apart]

/-- Once a block is open, its depth is counted on. -/
theorem blockDepth_append (opens : '\x7b' ∈ first) (second : Line) :
    blockDepth (first ++ second) = depthAfter (blockDepth first) second := by
  obtain ⟨front, rest, rfl, apart⟩ := List.eq_append_cons_of_mem opens
  rw [List.append_assoc, List.cons_append, blockDepth_append_cons apart,
    blockDepth_append_cons apart, depthAfter_append]

/-- After the first opening brace, what closes the block is what takes the depth one to zero. -/
theorem closesBlock_append_cons (apart : '\x7b' ∉ front) :
    ClosesBlock (front ++ '\x7b' :: rest) offset ↔
      ∃ inner, offset = front.length + (inner + 1) ∧ ClosesDepth 1 rest inner := by
  have block (inner : Nat) : blockUpTo (front ++ '\x7b' :: rest) (front.length + (inner + 1)) =
      '\x7b' :: rest.take (inner + 1) := by
    rw [blockUpTo, Nat.add_assoc, List.take_length_add_append, List.take_succ_cons,
      List.dropWhile_append_of_pos fun character member => by
        simpa using ne_of_mem_of_not_mem member apart]
    rfl
  have character (inner : Nat) : (front ++ '\x7b' :: rest)[front.length + (inner + 1)]? =
      rest[inner]? := by
    rw [List.getElem?_append_right (Nat.le_add_right _ _), Nat.add_sub_cancel_left]
    rfl
  constructor
  · rintro ⟨closing, opened, equal⟩
    have behind : front.length < offset := by
      rcases Nat.lt_trichotomy offset front.length with before | same | behind
      · rw [blockUpTo, List.take_append_of_le_length before] at opened
        exact absurd (List.mem_of_mem_take ((List.dropWhile_sublist _).subset opened)) apart
      · rw [same, List.getElem?_append_right (Nat.le_refl _), Nat.sub_self] at closing
        exact absurd (Option.some.inj closing) (by decide)
      · exact behind
    obtain ⟨inner, rfl⟩ := Nat.exists_eq_add_of_lt behind
    rw [Nat.add_assoc] at closing equal ⊢
    rw [character] at closing
    rw [block, List.count_cons_self, List.count_cons_of_ne (by decide)] at equal
    exact ⟨inner, rfl, closing, equal.symm⟩
  · rintro ⟨inner, rfl, closing, more⟩
    refine ⟨(character inner).trans closing, ?_, ?_⟩
    · rw [block]
      exact List.mem_cons_self
    · rw [block, List.count_cons_self, List.count_cons_of_ne (by decide), more]

/-- The depth of a block comes to zero exactly if some closing brace closes it. -/
theorem blockDepth_eq_zero_iff (opens : '\x7b' ∈ code) :
    blockDepth code = 0 ↔ ∃ offset, ClosesBlock code offset := by
  obtain ⟨front, rest, rfl, apart⟩ := List.eq_append_cons_of_mem opens
  rw [blockDepth_append_cons apart, depthAfter_eq_zero_iff]
  simp only [closesBlock_append_cons apart]
  constructor
  · rintro ⟨inner, closes⟩
    exact ⟨_, inner, rfl, closes⟩
  · rintro ⟨_, inner, -, closes⟩
    exact ⟨inner, closes⟩

theorem ClosesBlock.lt (closes : ClosesBlock code offset) : offset < code.length :=
  (List.getElem?_eq_some_iff.mp closes.closing).1

/-- Whether a closing brace closes a block depends only on what stands up to it. -/
theorem closesBlock_append_left (inside : offset < first.length) :
    ClosesBlock (first ++ second) offset ↔ ClosesBlock first offset := by
  have block : blockUpTo (first ++ second) offset = blockUpTo first offset := by
    rw [blockUpTo, List.take_append_of_le_length inside, blockUpTo]
  have character : (first ++ second)[offset]? = first[offset]? :=
    List.getElem?_append_left inside
  constructor
  · rintro ⟨closing, opened, equal⟩
    rw [block] at opened equal
    exact ⟨character.symm.trans closing, opened, equal⟩
  · rintro ⟨closing, opened, equal⟩
    refine ⟨character.trans closing, ?_, ?_⟩
    · rwa [block]
    · rwa [block]

/-! ### Line by line -/

variable {lines : List Line} {line : Line} {index last limit : Nat}

theorem codeBetween_self (lines : List Line) (index : Nat) :
    codeBetween lines index index = [] := by
  rw [codeBetween, Nat.sub_self]
  rfl

theorem codeBetween_append {middle : Nat} (low : index ≤ middle) (high : middle ≤ limit) :
    codeBetween lines index limit =
      codeBetween lines index middle ++ codeBetween lines middle limit := by
  have size : limit - index = (middle - index) + (limit - middle) := by omega
  rw [codeBetween, size, List.take_add, List.drop_drop, Nat.add_sub_cancel' low,
    List.flatMap_append, codeBetween, codeBetween]

theorem codeBetween_succ (here : lines[index]? = some line) :
    codeBetween lines index (index + 1) = codeOnly line := by
  obtain ⟨inside, rfl⟩ := List.getElem?_eq_some_iff.mp here
  rw [codeBetween, Nat.add_sub_cancel_left, List.drop_eq_getElem_cons inside]
  exact List.append_nil _

/-- A block that is opened on a line is open in the code from there on. -/
theorem opening_mem_codeBetween (here : lines[index]? = some line)
    (opens : '\x7b' ∈ codeOnly line) (before : index < limit) :
    '\x7b' ∈ codeBetween lines index limit := by
  rw [codeBetween_append (Nat.le_add_right index 1) before, codeBetween_succ here]
  exact List.mem_append_left _ opens

/-- Behind a line that leaves a depth open, the lines that follow it decide. -/
theorem exists_map_succ_iff {found? : Option Nat} :
    (∃ found ≤ last + 1, found?.map (· + 1) = some found) ↔
      ∃ found ≤ last, found? = some found := by
  constructor
  · rintro ⟨found, near, closes⟩
    obtain ⟨later, foundLater, rfl⟩ := Option.map_eq_some_iff.mp closes
    exact ⟨later, Nat.le_of_succ_le_succ near, foundLater⟩
  · rintro ⟨later, near, foundLater⟩
    exact ⟨later + 1, Nat.succ_le_succ near, by rw [foundLater]; rfl⟩

/-- A depth comes to zero on one of the first lines exactly if it is zero after them. -/
theorem exists_closingLine?_iff (inside : last < lines.length) :
    (∃ found ≤ last, closingLine? depth lines = some found) ↔
      depthAfter depth ((lines.take (last + 1)).flatMap codeOnly) = 0 := by
  induction lines generalizing depth last with
  | nil => cases inside
  | cons line rest inductionHypothesis =>
    rw [List.take_succ_cons, List.flatMap_cons, depthAfter_append, closingLine?]
    cases depthAfter depth (codeOnly line) with
    | zero => exact iff_of_true ⟨0, Nat.zero_le last, rfl⟩ (depthAfter_zero _)
    | succ deeper =>
      cases last with
      | zero => simp [depthAfter]
      | succ last =>
        rw [← inductionHypothesis (Nat.lt_of_succ_lt_succ inside)]
        exact exists_map_succ_iff

/-- A block ends within the first lines exactly if its depth is zero after them. -/
theorem exists_blockLength?_iff {rest : List Line} (opens : '\x7b' ∈ codeOnly line)
    (inside : last < (line :: rest).length) :
    (∃ found ≤ last, blockLength? (line :: rest) = some found) ↔
      blockDepth (((line :: rest).take (last + 1)).flatMap codeOnly) = 0 := by
  rw [List.take_succ_cons, List.flatMap_cons, blockDepth_append opens, blockLength?, blockDepth]
  obtain ⟨front, tail, shape, apart⟩ := List.eq_append_cons_of_mem opens
  rw [shape, Text.after?_append_cons apart]
  simp only
  cases depthAfter 1 tail with
  | zero => exact iff_of_true ⟨0, Nat.zero_le last, rfl⟩ (depthAfter_zero _)
  | succ deeper =>
    cases last with
    | zero => simp [depthAfter]
    | succ last =>
      rw [← exists_closingLine?_iff (Nat.lt_of_succ_lt_succ inside)]
      exact exists_map_succ_iff

theorem blockEnd_of_not_opening (here : lines[index]? = some line)
    (apart : '\x7b' ∉ codeOnly line) : blockEnd lines index = index := by
  obtain ⟨inside, rfl⟩ := List.getElem?_eq_some_iff.mp here
  rw [blockEnd, List.drop_eq_getElem_cons inside, blockLength?, Text.after?_of_not_mem apart]
  rfl

/-- A block whose depth is zero after a line ends there or before. -/
theorem blockEnd_le_of_blockDepth (here : lines[index]? = some line)
    (opens : '\x7b' ∈ codeOnly line) (low : index ≤ last) (inside : last < lines.length)
    (zero : blockDepth (codeBetween lines index (last + 1)) = 0) : blockEnd lines index ≤ last := by
  obtain ⟨before, rfl⟩ := List.getElem?_eq_some_iff.mp here
  obtain ⟨count, rfl⟩ := Nat.exists_eq_add_of_le low
  rw [codeBetween, Nat.add_assoc, Nat.add_sub_cancel_left, List.drop_eq_getElem_cons before,
    ← exists_blockLength?_iff opens (by simp; omega)] at zero
  obtain ⟨found, near, ends⟩ := zero
  rw [blockEnd, List.drop_eq_getElem_cons before, ends]
  exact Nat.add_le_add_left near index

/-- A block that ends at a line or before has depth zero after it, unless it is the last line. -/
theorem blockDepth_of_blockEnd_le (here : lines[index]? = some line)
    (opens : '\x7b' ∈ codeOnly line) (low : index ≤ last) (inside : last + 1 < lines.length)
    (ends : blockEnd lines index ≤ last) : blockDepth (codeBetween lines index (last + 1)) = 0 := by
  obtain ⟨before, rfl⟩ := List.getElem?_eq_some_iff.mp here
  obtain ⟨count, rfl⟩ := Nat.exists_eq_add_of_le low
  rw [codeBetween, Nat.add_assoc, Nat.add_sub_cancel_left, List.drop_eq_getElem_cons before,
    ← exists_blockLength?_iff opens (by simp; omega)]
  rw [blockEnd, List.drop_eq_getElem_cons before] at ends
  split at ends
  · rename_i found closes
    exact ⟨found, Nat.le_of_add_le_add_left ends, closes⟩
  · omega

/-! ### Where a block ends -/

/-- An offset is that of a character on a line exactly if the code before the line is not longer
and the code through the line is. -/
theorem standsOn_iff (low : index ≤ last) (inside : last < lines.length) :
    StandsOn lines index last offset ↔
      (codeBetween lines index last).length ≤ offset ∧
        offset < (codeBetween lines index (last + 1)).length := by
  have here : lines[last]? = some lines[last] := List.getElem?_eq_getElem inside
  rw [codeBetween_append low (Nat.le_add_right last 1), codeBetween_succ here, List.length_append]
  constructor
  · rintro ⟨line, inner, stands, within, rfl⟩
    cases here.symm.trans stands
    omega
  · rintro ⟨behind, within⟩
    exact ⟨lines[last], offset - (codeBetween lines index last).length, here, by omega, by omega⟩

/-- The line on which the block ends that a line opens. A line that opens none is its own end, and
a block that nothing closes reaches to the last line. -/
structure IsBlockEnd (lines : List Line) (index : Nat) (line : Line) (last : Nat) : Prop where
  bodiless : '\x7b' ∉ codeOnly line → last = index
  closed : '\x7b' ∈ codeOnly line → ∀ offset,
    IsLeast {offset | ClosesBlock (codeBetween lines index lines.length) offset} offset →
      StandsOn lines index last offset
  unclosed : '\x7b' ∈ codeOnly line →
    (∀ offset, ¬ ClosesBlock (codeBetween lines index lines.length) offset) →
      last + 1 = lines.length

/-- A closing brace that closes a block on the first lines does so on all lines. -/
theorem closesBlock_codeBetween (low : index ≤ limit) (high : limit ≤ lines.length)
    (near : offset < (codeBetween lines index limit).length) :
    ClosesBlock (codeBetween lines index lines.length) offset ↔
      ClosesBlock (codeBetween lines index limit) offset := by
  rw [codeBetween_append low high, closesBlock_append_left near]

/-- Unless a block ends on the last line, it is closed on its end or before. -/
theorem exists_closesBlock_of_blockEnd (here : lines[index]? = some line)
    (opens : '\x7b' ∈ codeOnly line) (more : blockEnd lines index + 1 < lines.length) :
    ∃ offset < (codeBetween lines index (blockEnd lines index + 1)).length,
      ClosesBlock (codeBetween lines index lines.length) offset := by
  have low := (blockEnd_within (List.getElem?_eq_some_iff.mp here).1).1
  have zero := blockDepth_of_blockEnd_le here opens low more (Nat.le_refl _)
  rw [blockDepth_eq_zero_iff (opening_mem_codeBetween here opens (by omega))] at zero
  obtain ⟨offset, closes⟩ := zero
  exact ⟨offset, closes.lt,
    (closesBlock_codeBetween (by omega) (by omega) closes.lt).mpr closes⟩

/-- No closing brace closes a block before the line on which it ends. -/
theorem length_le_of_closesBlock (here : lines[index]? = some line)
    (opens : '\x7b' ∈ codeOnly line)
    (closes : ClosesBlock (codeBetween lines index lines.length) offset) :
    (codeBetween lines index (blockEnd lines index)).length ≤ offset := by
  refine Nat.le_of_not_lt fun near => ?_
  have bounds := blockEnd_within (List.getElem?_eq_some_iff.mp here).1
  rcases Nat.eq_or_lt_of_le bounds.1 with same | behind
  · rw [← same, codeBetween_self] at near
    exact Nat.not_lt_zero offset near
  · obtain ⟨last, shape⟩ := Nat.exists_eq_add_of_lt behind
    have closes := (closesBlock_codeBetween bounds.1 (Nat.le_of_lt bounds.2) near).mp closes
    have zero := (blockDepth_eq_zero_iff (opening_mem_codeBetween here opens behind)).mpr
      ⟨offset, closes⟩
    rw [shape] at zero
    have early := blockEnd_le_of_blockDepth here opens (Nat.le_add_right index last) (by omega) zero
    omega

theorem isBlockEnd_blockEnd (here : lines[index]? = some line) :
    IsBlockEnd lines index line (blockEnd lines index) where
  bodiless apart := blockEnd_of_not_opening here apart
  closed opens offset least := by
    have bounds := blockEnd_within (List.getElem?_eq_some_iff.mp here).1
    rw [standsOn_iff bounds.1 bounds.2]
    refine ⟨length_le_of_closesBlock here opens least.1, ?_⟩
    by_cases more : blockEnd lines index + 1 < lines.length
    · obtain ⟨other, near, closes⟩ := exists_closesBlock_of_blockEnd here opens more
      exact Nat.lt_of_le_of_lt (least.2 closes) near
    · have final : blockEnd lines index + 1 = lines.length := by omega
      rw [final]
      exact ClosesBlock.lt least.1
  unclosed opens never := by
    have bounds := blockEnd_within (List.getElem?_eq_some_iff.mp here).1
    refine Nat.le_antisymm bounds.2 (Nat.le_of_not_lt fun more => ?_)
    obtain ⟨offset, -, closes⟩ := exists_closesBlock_of_blockEnd here opens more
    exact never offset closes

/-- The end of a block is found for every line, inside the lines and not before it: it is the line
of the first closing brace that closes the block. So a located function, which reaches to the end
of the block that opens where its signature ends, ends inside the lines and not before its start. -/
theorem blocks_end_where_braces_close (lines : List Line) :
    (∀ (index : Nat) (line : Line), lines[index]? = some line →
      ∃ last : Nat, blockEnd? lines index = some (last : Int) ∧ index ≤ last ∧
        last < lines.length ∧ IsBlockEnd lines index line last) ∧
      ∀ start function, functionAt? lines start = some function →
        blockEnd? lines (signatureAt lines start).braceIndex =
            some ((function.lastLine : Int) - 1) ∧
          function.firstLine = start + 1 ∧ function.firstLine ≤ function.lastLine ∧
          function.lastLine ≤ lines.length := by
  constructor
  · intro index line here
    have inside := (List.getElem?_eq_some_iff.mp here).1
    have bounds := blockEnd_within inside
    exact ⟨blockEnd lines index, blockEnd?_of_lt inside, bounds.1, bounds.2,
      isBlockEnd_blockEnd here⟩
  · intro start function located
    rw [functionAt?] at located
    split at located
    · rename_i inside
      obtain ⟨name, -, rfl⟩ := Option.map_eq_some_iff.mp located
      have bounds := itemEnd_within inside
      refine ⟨?_, rfl, Nat.succ_le_succ bounds.1, bounds.2⟩
      rw [blockEnd?_braceIndex inside, Int.natCast_succ, Int.add_sub_cancel]
    · cases located

/-- A line that closes the block and opens another one is the end. -/
example : blockEnd (["fn f() \x7b", "\x7d mod m \x7b", "\x7d"].map String.toList) 0 = 1 := by
  decide +kernel

end Rust

end CrateAudit

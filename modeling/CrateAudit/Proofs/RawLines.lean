/-
This file looks at the lines of a file as the bytes that they are: the bytes of a text
and those that end it. Cutting the bytes and then reading each text gives the lines
that reading the whole file and then cutting it gives.
-/

import CrateAudit.Project.Tree
import CrateAudit.Proofs.Lines
import CrateAudit.Proofs.Utf8

namespace CrateAudit

/-- A line as it stands in a file. Only the last one may have no terminator. -/
structure RawLine where
  text : Bytes
  terminator : Bytes
  deriving DecidableEq, Repr

namespace RawLine

/-- All the bytes of a line. -/
def bytes (line : RawLine) : Bytes :=
  line.text ++ line.terminator

/-- The line with one more byte in front. -/
def push (byte : UInt8) : List RawLine → List RawLine
  | [] => [⟨[byte], []⟩]
  | line :: rest => ⟨byte :: line.text, line.terminator⟩ :: rest

end RawLine

namespace Text

/-! ### Terminators -/

/-- The characters that end a line. -/
def breakCharacters : List Char :=
  ['\n', '\x0b', '\x0c', '\r', '\x1c', '\x1d', '\x1e', '\x85', '\u2028', '\u2029']

/-- The bytes that end a line: a carriage return with a line feed, or one of the characters. -/
def terminators : List Bytes :=
  [0x0D, 0x0A] :: breakCharacters.map encodeCharacter

/-- The terminator at the start of some bytes. -/
def terminator? (bytes : Bytes) : Option Bytes :=
  terminators.find? (·.isPrefixOf bytes)

/-- The lines of a file. -/
def rawLines : Bytes → List RawLine
  | [] => []
  | byte :: rest =>
    match terminator? (byte :: rest) with
    | some terminator => ⟨[], terminator⟩ :: rawLines (rest.drop (terminator.length - 1))
    | none => RawLine.push byte (rawLines rest)
  termination_by bytes => bytes.length
  decreasing_by
  · simp only [List.length_drop, List.length_cons]
    omega
  · simp

theorem endsLine_iff_mem {character : Char} :
    endsLine character = true ↔ character ∈ breakCharacters := by
  constructor
  · intro ends
    have same := Char.ofNat_toNat character
    simp only [endsLine, Bool.or_eq_true, Bool.and_eq_true, decide_eq_true_eq, beq_iff_eq] at ends
    have numbers : breakCharacters =
        [0x0A, 0x0B, 0x0C, 0x0D, 0x1C, 0x1D, 0x1E, 0x85, 0x2028, 0x2029].map Char.ofNat := rfl
    rw [numbers, ← same]
    refine List.mem_map_of_mem ?_
    simp only [List.mem_cons, List.not_mem_nil, or_false]
    omega
  · have every : breakCharacters.all endsLine = true := rfl
    exact List.all_eq_true.mp every character

/-- A byte that stands inside a character only starts no terminator. -/
theorem startsInside_of_mem_terminators {terminator : Bytes} (member : terminator ∈ terminators) :
    terminator ≠ [] ∧ startsInside terminator = false :=
  (by decide : ∀ t ∈ terminators, t ≠ [] ∧ startsInside t = false) terminator member

theorem startsInside_terminator_append {terminator : Bytes} (member : terminator ∈ terminators)
    (rest : Bytes) : startsInside (terminator ++ rest) = false := by
  have known := startsInside_of_mem_terminators member
  cases terminator with
  | nil => exact absurd rfl known.1
  | cons => exact known.2

/-- What is left of a terminator after some of its bytes continues a character, unless it is
the line feed after a carriage return. -/
theorem startsInside_of_append_mem_terminators {first second : Bytes}
    (member : first ++ second ∈ terminators) (left : first ≠ []) (right : second ≠ []) :
    first = [0x0D] ∨ startsInside second = true := by
  have each : ∀ t ∈ terminators, ∀ k ∈ [1, 2], t.drop k ≠ [] →
      t.take k = [0x0D] ∨ startsInside (t.drop k) = true := by
    decide
  have long : ∀ t ∈ terminators, t.length ≤ 3 := by decide
  have bound := long _ member
  have counted := each _ member first.length (by
    have := List.length_pos_iff.mpr left
    have := List.length_pos_iff.mpr right
    rw [List.length_append] at bound
    have : first.length = 1 ∨ first.length = 2 := by omega
    simpa using this)
  rw [List.drop_left, List.take_left] at counted
  exact counted right

/-- No line ends inside these bytes. -/
def HoldsNoBreak (bytes : Bytes) : Prop :=
  ∀ terminator ∈ terminators, ¬terminator <:+: bytes

theorem holdsNoBreak_nil : HoldsNoBreak [] := by
  intro terminator member inside
  exact (startsInside_of_mem_terminators member).1 (List.infix_nil.mp inside)

theorem HoldsNoBreak.tail {byte : UInt8} {bytes : Bytes} (none : HoldsNoBreak (byte :: bytes)) :
    HoldsNoBreak bytes :=
  fun terminator member inside => none terminator member (List.infix_cons inside)

theorem terminator?_eq_none {bytes : Bytes} :
    terminator? bytes = none ↔ ∀ terminator ∈ terminators, ¬terminator <+: bytes := by
  simp [terminator?, List.find?_eq_none, List.isPrefixOf_iff_prefix]

/-- A carriage return before a line feed does not end a line by itself. -/
def IsWhole (terminator rest : Bytes) : Prop :=
  terminator = [0x0D] → rest.head? ≠ some 0x0A

theorem terminators_eq : terminators =
    [[0x0D, 0x0A], [0x0A], [0x0B], [0x0C], [0x0D], [0x1C], [0x1D], [0x1E], [0xC2, 0x85],
      [0xE2, 0x80, 0xA8], [0xE2, 0x80, 0xA9]] := by
  decide

/-- A whole terminator is the one that is found. -/
theorem terminator?_append {terminator rest : Bytes} (member : terminator ∈ terminators)
    (whole : IsWhole terminator rest) : terminator? (terminator ++ rest) = some terminator := by
  rw [terminator?]
  rw [terminators_eq] at member ⊢
  simp only [List.mem_cons, List.not_mem_nil, or_false] at member
  rcases member with rfl | rfl | rfl | rfl | rfl | rfl | rfl | rfl | rfl | rfl | rfl
  case inr.inr.inr.inr.inl =>
    have alone := whole rfl
    cases rest with
    | nil => rfl
    | cons byte rest =>
      have other : (0x0A == byte) = false := by
        rw [beq_eq_false_iff_ne]
        rintro rfl
        exact alone rfl
      simp [List.find?, List.isPrefixOf, other]
  all_goals simp [List.find?, List.isPrefixOf]

/-- What is found is a whole terminator. -/
theorem eq_append_of_terminator? {bytes terminator : Bytes}
    (found : terminator? bytes = some terminator) :
    terminator ∈ terminators ∧
      ∃ rest, bytes = terminator ++ rest ∧ IsWhole terminator rest := by
  obtain ⟨starts, before, after, split, earlier⟩ := List.find?_eq_some_iff_append.mp found
  obtain ⟨rest, rfl⟩ := List.isPrefixOf_iff_prefix.mp starts
  refine ⟨List.mem_of_find?_eq_some found, rest, rfl, ?_⟩
  rintro rfl feed
  -- the two bytes together stand first in the list, so they would have been found
  cases rest with
  | nil => cases feed
  | cons byte rest =>
    cases feed
    have pair : terminator? ([0x0D, 0x0A] ++ rest) = some [0x0D, 0x0A] :=
      terminator?_append (by decide) (by rintro ⟨⟩)
    rw [List.cons_append, List.nil_append] at found
    rw [List.cons_append, List.cons_append, List.nil_append, found] at pair
    cases pair

/-! ### Cutting -/

theorem rawLines_append {terminator rest : Bytes} (member : terminator ∈ terminators)
    (whole : IsWhole terminator rest) :
    rawLines (terminator ++ rest) = ⟨[], terminator⟩ :: rawLines rest := by
  have found := terminator?_append member whole
  cases terminator with
  | nil => exact absurd rfl (startsInside_of_mem_terminators member).1
  | cons byte later =>
    rw [List.cons_append] at found ⊢
    rw [rawLines, found]
    simp

/-- Bytes in which no line ends, before a terminator, are a line of their own. -/
theorem rawLines_append_append {text terminator rest : Bytes} (plain : HoldsNoBreak text)
    (member : terminator ∈ terminators) (whole : IsWhole terminator rest) :
    rawLines (text ++ (terminator ++ rest)) = ⟨text, terminator⟩ :: rawLines rest := by
  induction text with
  | nil => exact rawLines_append member whole
  | cons byte text inductionHypothesis =>
    have none : terminator? (byte :: text ++ (terminator ++ rest)) = none := by
      rw [terminator?_eq_none]
      rintro other otherMember starts
      rcases List.prefix_or_prefix_of_prefix starts (List.prefix_append _ _) with
        inside | ⟨tail, split⟩
      · exact plain other otherMember inside.isInfix
      -- the terminator would reach from the text into the one that follows
      subst split
      have following := (List.prefix_append_right_inj _).mp starts
      cases tail with
      | nil =>
        rw [List.append_nil] at otherMember
        exact plain _ otherMember List.infix_rfl
      | cons next tail =>
        have nonempty := (startsInside_of_mem_terminators member).1
        have outside := (startsInside_of_mem_terminators member).2
        rcases startsInside_of_append_mem_terminators otherMember (by simp) (by simp) with
          return_ | inside
        · exact plain [0x0D] (by decide) (return_ ▸ List.infix_rfl)
        · cases terminator with
          | nil => exact nonempty rfl
          | cons first later =>
            rw [List.cons_append, List.cons_prefix_cons] at following
            rw [startsInside_cons, following.1] at inside
            rw [startsInside_cons, inside] at outside
            cases outside
    rw [List.cons_append] at none ⊢
    rw [rawLines, none]
    simp only [inductionHypothesis plain.tail, RawLine.push]

theorem rawLines_of_holdsNoBreak {text : Bytes} (plain : HoldsNoBreak text) :
    rawLines text = if text = [] then [] else [⟨text, []⟩] := by
  induction text with
  | nil => rw [rawLines, if_pos rfl]
  | cons byte text inductionHypothesis =>
    have none : terminator? (byte :: text) = none :=
      terminator?_eq_none.mpr fun other member starts => plain other member starts.isInfix
    rw [rawLines, none]
    simp only [inductionHypothesis plain.tail]
    cases text <;> simp [RawLine.push]

/-- Bytes hold no break, or they are cut after the first one. -/
theorem exists_cut (bytes : Bytes) :
    HoldsNoBreak bytes ∨ ∃ text terminator rest, HoldsNoBreak text ∧ terminator ∈ terminators ∧
      IsWhole terminator rest ∧ bytes = text ++ (terminator ++ rest) := by
  have extend {byte : UInt8} {text : Bytes} (rest : Bytes) (plain : HoldsNoBreak text)
      (none : terminator? (byte :: (text ++ rest)) = none) : HoldsNoBreak (byte :: text) := by
    intro other member inside
    rcases List.infix_cons_iff.mp inside with starts | later
    · exact terminator?_eq_none.mp none other member
        (starts.trans (List.prefix_append (byte :: text) rest))
    · exact plain other member later
  induction bytes with
  | nil => exact .inl holdsNoBreak_nil
  | cons byte bytes inductionHypothesis =>
    cases here : terminator? (byte :: bytes) with
    | some terminator =>
      obtain ⟨member, rest, split, whole⟩ := eq_append_of_terminator? here
      exact .inr ⟨[], terminator, rest, holdsNoBreak_nil, member, whole, split⟩
    | none =>
      rcases inductionHypothesis with plain | ⟨text, terminator, rest, plain, member, whole, rfl⟩
      · exact .inl (extend [] plain (by rwa [List.append_nil]))
      · exact .inr ⟨byte :: text, terminator, rest, extend _ plain here, member, whole, rfl⟩

/-- What holds of bytes without a break, and passes from what follows a line to the line with
what follows it, holds of all bytes. -/
@[elab_as_elim]
theorem cutInduction {motive : Bytes → Prop}
    (whole : ∀ text, HoldsNoBreak text → motive text)
    (cut : ∀ text terminator rest, HoldsNoBreak text → terminator ∈ terminators →
      IsWhole terminator rest → motive rest → motive (text ++ (terminator ++ rest)))
    (bytes : Bytes) : motive bytes := by
  rcases exists_cut bytes with plain | ⟨text, terminator, rest, plain, member, unbroken, split⟩
  · exact whole bytes plain
  · have shorter : rest.length < bytes.length := by
      have nonempty := List.length_pos_iff.mpr (startsInside_of_mem_terminators member).1
      rw [split, List.length_append, List.length_append]
      omega
    rw [split]
    exact cut text terminator rest plain member unbroken (cutInduction whole cut rest)
  termination_by bytes.length

/-- Nothing is lost: the lines make up the file. -/
theorem flatMap_rawLines (bytes : Bytes) : (rawLines bytes).flatMap RawLine.bytes = bytes := by
  induction bytes using cutInduction with
  | whole text plain =>
    rw [rawLines_of_holdsNoBreak plain]
    split
    · rename_i empty
      rw [empty]
      rfl
    · simp [RawLine.bytes]
  | cut text terminator rest plain member whole inductionHypothesis =>
    rw [rawLines_append_append plain member whole, List.flatMap_cons, inductionHypothesis]
    simp [RawLine.bytes]

/-! ### Reading the lines -/

/-- A terminator starts with the bytes of a character that ends a line. -/
theorem exists_breakCharacter {terminator : Bytes} (member : terminator ∈ terminators) :
    ∃ character more, endsLine character = true ∧
      terminator = encodeCharacter character ++ more := by
  rcases List.mem_cons.mp member with rfl | single
  · exact ⟨'\r', [0x0A], rfl, by decide⟩
  · obtain ⟨character, isBreak, rfl⟩ := List.mem_map.mp single
    exact ⟨character, [], endsLine_iff_mem.mpr isBreak, (List.append_nil _).symm⟩

/-- Bytes without a break are read as a text without one. -/
theorem isPlain_decode {text : Bytes} (plain : HoldsNoBreak text) : IsPlain (decode text) := by
  intro character member
  rw [← Bool.not_eq_true]
  intro ends
  obtain ⟨piece, found, same⟩ := List.mem_map.mp member
  cases piece with
  | none =>
    rw [← same] at ends
    exact absurd ends (by decide)
  | some own =>
    rw [Option.getD_some] at same
    subst same
    exact plain _ (List.mem_cons_of_mem _ (List.mem_map_of_mem (endsLine_iff_mem.mp ends)))
      (isInfix_encodeCharacter found)

/-- A text without a break is written as bytes without one. -/
theorem holdsNoBreak_encode {text : List Char} (plain : IsPlain text) :
    HoldsNoBreak (encode text) := by
  rintro terminator member ⟨before, after, split⟩
  obtain ⟨character, more, ends, shape⟩ := exists_breakCharacter member
  have outside := startsInside_terminator_append member after
  have read := pieces_encode text
  rw [← split, List.append_assoc, pieces_append _ _ outside, shape, List.append_assoc,
    pieces_encodeCharacter_append] at read
  have found : some character ∈ text.map some := by
    rw [← read]
    simp
  obtain ⟨own, member', same⟩ := List.mem_map.mp found
  cases same
  rw [plain character member'] at ends
  cases ends

/-- What a terminator is read as ends a line. -/
theorem lines_decode_terminator {terminator rest : Bytes} (member : terminator ∈ terminators)
    (whole : IsWhole terminator rest) :
    lines (decode (terminator ++ rest)) = [] :: lines (decode rest) := by
  rcases List.mem_cons.mp member with rfl | single
  · have read : decode ([0x0D, 0x0A] ++ rest) = '\r' :: '\n' :: decode rest := by
      rw [show ([0x0D, 0x0A] : Bytes) = encode ['\r', '\n'] by decide, decode,
        pieces_encode_append]
      rfl
    rw [read, lines]
  · obtain ⟨character, isBreak, rfl⟩ := List.mem_map.mp single
    have read : decode (encodeCharacter character ++ rest) = character :: decode rest := by
      rw [decode, pieces_encodeCharacter_append]
      rfl
    rw [read, lines_cons_of_ends (endsLine_iff_mem.mpr isBreak)]
    rintro ⟨rfl, feed⟩
    have shape : (pieces rest).head? = some (some '\n') := by
      rw [decode, List.head?_map] at feed
      obtain ⟨piece, found, same⟩ := Option.map_eq_some_iff.mp feed
      cases piece with
      | none => exact absurd same (by decide)
      | some own =>
        cases same
        exact found
    obtain ⟨later, read⟩ := List.head?_eq_some_iff.mp shape
    obtain ⟨more, rfl, -⟩ := eq_encodeCharacter_append read
    exact whole (by decide) (by rfl)

/-- Cutting a file and reading each line gives what reading the file and cutting its text
gives. -/
theorem map_decode_rawLines (bytes : Bytes) :
    (rawLines bytes).map (fun line => decode line.text) = lines (decode bytes) := by
  induction bytes using cutInduction with
  | whole text plain =>
    rw [rawLines_of_holdsNoBreak plain]
    split
    · rename_i empty
      rw [empty, decode_nil]
      rfl
    · rename_i nonempty
      rw [lines_of_no_end (isPlain_decode plain) (fun none => nonempty (decode_eq_nil.mp none))]
      rfl
  | cut text terminator rest plain member whole inductionHypothesis =>
    have outside := startsInside_terminator_append member rest
    rw [rawLines_append_append plain member whole, List.map_cons, inductionHypothesis,
      decode_append _ _ outside,
      lines_append_of_ends (isPlain_decode plain) (lines_decode_terminator member whole)]

end Text

end CrateAudit

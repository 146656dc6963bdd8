/-
This file proves that reading undoes writing: the bytes of a text are read as that
text, and bytes that are UTF-8 throughout are the bytes of the text read from them.
Reading is local: where a byte that continues no character stands, what comes before
it and what comes from it on are read apart.
-/

import CrateAudit.Proofs.Search
import CrateAudit.Text.Encoding

namespace CrateAudit.Text

/-! ### Continuation bytes -/

/-- A byte that stands inside a character only. -/
def isContinuation (byte : UInt8) : Bool :=
  0x80 ≤ byte.toNat && byte.toNat ≤ 0xBF

/-- Whether bytes start with a byte that stands inside a character only. -/
def startsInside (bytes : List UInt8) : Bool :=
  bytes.head?.any isContinuation

@[simp]
theorem startsInside_cons (byte : UInt8) (bytes : List UInt8) :
    startsInside (byte :: bytes) = isContinuation byte := rfl

/-- The bytes that may follow the first one of a character are continuation bytes. -/
theorem continuations_within {first : Nat} {bounds : List (Nat × Nat)}
    (known : continuations first = some bounds) :
    ∀ bound ∈ bounds, 0x80 ≤ bound.1 ∧ bound.2 ≤ 0xBF := by
  unfold continuations at known
  simp only at known
  repeat' split at known
  all_goals cases known
  all_goals simp

/-- A character that is complete, or broken off by its own bytes, is read the same whatever
follows. -/
theorem complete_append (code : Nat) (bounds : List (Nat × Nat)) (bytes rest : List UInt8)
    (within : ∀ bound ∈ bounds, 0x80 ≤ bound.1 ∧ bound.2 ≤ 0xBF)
    (apart : startsInside rest = false) :
    complete code bounds (bytes ++ rest) =
      ((complete code bounds bytes).1, (complete code bounds bytes).2 ++ rest) := by
  induction bounds generalizing code bytes with
  | nil => simp [complete]
  | cons bound bounds inductionHypothesis =>
    have later := fun b m => within b (List.mem_cons_of_mem _ m)
    have here := within bound List.mem_cons_self
    cases bytes with
    | nil =>
      cases rest with
      | nil => simp [complete]
      | cons byte rest =>
        rw [startsInside_cons, isContinuation] at apart
        simp only [List.nil_append, complete]
        rw [if_neg]
        simp only [Bool.and_eq_false_iff, decide_eq_false_iff_not, Bool.and_eq_true,
          decide_eq_true_eq] at apart ⊢
        omega
    | cons byte bytes =>
      simp only [List.cons_append, complete]
      split
      · exact inductionHypothesis _ _ later
      · rfl

/-- What follows a character is a rest of the bytes. -/
theorem complete_suffix (code : Nat) (bounds : List (Nat × Nat)) (bytes : List UInt8) :
    (complete code bounds bytes).2 <:+ bytes := by
  induction bounds generalizing code bytes with
  | nil => exact List.suffix_rfl
  | cons bound bounds inductionHypothesis =>
    cases bytes with
    | nil => exact List.suffix_rfl
    | cons byte bytes =>
      rw [complete]
      split
      · exact (inductionHypothesis _ _).trans (List.suffix_cons byte bytes)
      · exact List.suffix_rfl

/-- Text is read piece by piece: bytes that do not start inside a character are read as they
are by themselves. -/
theorem pieces_append (bytes rest : List UInt8) (apart : startsInside rest = false) :
    pieces (bytes ++ rest) = pieces bytes ++ pieces rest := by
  fun_induction pieces bytes with
  | case1 => rfl
  | case2 byte bytes invalid inductionHypothesis =>
    rw [List.cons_append, pieces, invalid]
    simp only [List.cons_append, inductionHypothesis]
  | case3 byte bytes bounds known step inductionHypothesis =>
    have whole := complete_append (leadBits byte.toNat) bounds bytes rest
      (continuations_within known) apart
    rw [List.cons_append, pieces, known]
    simp only [whole, List.cons_append]
    rw [← inductionHypothesis]

@[simp]
theorem pieces_nil : pieces [] = [] := by
  rw [pieces]

@[simp]
theorem decode_nil : decode [] = [] := by
  rw [decode, pieces_nil, List.map_nil]

theorem decode_eq_nil {bytes : List UInt8} : decode bytes = [] ↔ bytes = [] := by
  constructor
  · intro none
    fun_cases pieces bytes with
    | case1 => rfl
    | case2 byte bytes invalid => simp [decode, pieces, invalid] at none
    | case3 byte bytes bounds known => simp [decode, pieces, known] at none
  · rintro rfl
    exact decode_nil

theorem decode_append (bytes rest : List UInt8) (apart : startsInside rest = false) :
    decode (bytes ++ rest) = decode bytes ++ decode rest := by
  rw [decode, pieces_append bytes rest apart, List.map_append]
  rfl

/-! ### Reading what was written -/

/-- The bound is a literal here, so that arithmetic can discharge it. -/
theorem toNat_toUInt8 {value : Nat} (small : value < 0x100) : value.toUInt8.toNat = value :=
  UInt8.toNat_ofNat_of_lt' small

/-- A byte is the one with its value. -/
theorem toUInt8_eq {value : Nat} {byte : UInt8} (same : value = byte.toNat) :
    value.toUInt8 = byte := by
  rw [same, Nat.toUInt8, UInt8.ofNat_toNat]

/-- The code point of a character is no half of a surrogate pair, and there is a last one. -/
theorem toNat_scalar (character : Char) :
    character.toNat < 0xD800 ∨ (0xDFFF < character.toNat ∧ character.toNat < 0x110000) :=
  character.valid

theorem toNat_ofNat {code : Nat}
    (scalar : code < 0xD800 ∨ (0xDFFF < code ∧ code < 0x110000)) :
    (Char.ofNat code).toNat = code := by
  have valid : code.isValidChar := scalar
  unfold Char.ofNat
  rw [dif_pos valid]
  rfl

theorem pieces_cons_of_complete {byte : UInt8} {bytes : List UInt8}
    (bounds : List (Nat × Nat)) (code : Option Nat) (rest : List UInt8)
    (known : continuations byte.toNat = some bounds)
    (read : complete (leadBits byte.toNat) bounds bytes = (code, rest)) :
    pieces (byte :: bytes) = code.map Char.ofNat :: pieces rest := by
  rw [pieces, known]
  simp only [read]

theorem complete_cons_of_within {code low high : Nat} {bounds : List (Nat × Nat)} {byte : UInt8}
    {bytes : List UInt8} (within : low ≤ byte.toNat ∧ byte.toNat ≤ high) :
    complete code ((low, high) :: bounds) (byte :: bytes) =
      complete (code * 64 + (byte.toNat - 0x80)) bounds bytes := by
  rw [complete, if_pos (by simpa using within)]

/-- The second byte of a character of three bytes lies within the bounds that the first one
sets. -/
theorem continuations_three (code : Nat) (low : 0x800 ≤ code) (high : code < 0x10000)
    (scalar : code < 0xD800 ∨ 0xDFFF < code) :
    ∃ least most, continuations (0xE0 + code >>> 12) = some [(least, most), (0x80, 0xBF)] ∧
      least ≤ 0x80 + code >>> 6 % 64 ∧ 0x80 + code >>> 6 % 64 ≤ most := by
  simp only [continuations]
  rw [if_neg (by omega), if_neg (by omega), if_neg (by omega)]
  split
  case isTrue lowest =>
    rw [beq_iff_eq] at lowest
    exact ⟨_, _, rfl, by omega, by omega⟩
  case isFalse =>
    split
    case isTrue surrogate =>
      rw [beq_iff_eq] at surrogate
      exact ⟨_, _, rfl, by omega, by omega⟩
    case isFalse =>
      rw [if_pos (by omega)]
      exact ⟨_, _, rfl, by omega, by omega⟩

/-- The second byte of a character of four bytes lies within the bounds that the first one
sets. -/
theorem continuations_four (code : Nat) (low : 0x10000 ≤ code) (high : code < 0x110000) :
    ∃ least most,
      continuations (0xF0 + code >>> 18) = some [(least, most), (0x80, 0xBF), (0x80, 0xBF)] ∧
        least ≤ 0x80 + code >>> 12 % 64 ∧ 0x80 + code >>> 12 % 64 ≤ most := by
  simp only [continuations]
  rw [if_neg (by omega), if_neg (by omega), if_neg (by omega),
    if_neg (by rw [beq_iff_eq]; omega), if_neg (by rw [beq_iff_eq]; omega), if_neg (by omega)]
  split
  case isTrue lowest =>
    rw [beq_iff_eq] at lowest
    exact ⟨_, _, rfl, by omega, by omega⟩
  case isFalse notLowest =>
    rw [beq_iff_eq] at notLowest
    split
    case isTrue => exact ⟨_, _, rfl, by omega, by omega⟩
    case isFalse =>
      rw [if_pos (by rw [beq_iff_eq]; omega)]
      exact ⟨_, _, rfl, by omega, by omega⟩

/-- The bytes of a character are read as that character, whatever follows. -/
theorem pieces_encodeCharacter_append (character : Char) (rest : List UInt8) :
    pieces (encodeCharacter character ++ rest) = some character :: pieces rest := by
  have scalar := toNat_scalar character
  have same := Char.ofNat_toNat character
  unfold encodeCharacter
  generalize character.toNat = code at scalar same ⊢
  simp only
  have tail (shift : Nat) : (0x80 + code >>> shift % 64).toUInt8.toNat =
      0x80 + code >>> shift % 64 := toNat_toUInt8 (by omega)
  split
  · have lead : code.toUInt8.toNat = code := toNat_toUInt8 (by omega)
    rw [List.cons_append, List.nil_append,
      pieces_cons_of_complete [] (some code) rest]
    · rw [Option.map_some, same]
    · rw [lead, continuations, if_pos (by omega)]
    · rw [lead, leadBits, complete, if_pos (by omega)]
  split
  · have lead : (0xC0 + code >>> 6).toUInt8.toNat = 0xC0 + code >>> 6 :=
      toNat_toUInt8 (by omega)
    rw [List.cons_append, pieces_cons_of_complete [(0x80, 0xBF)] (some code) rest]
    · rw [Option.map_some, same]
    · rw [lead, continuations, if_neg (by omega), if_neg (by omega), if_pos (by omega)]
    · rw [lead, leadBits, if_neg (by omega), if_pos (by omega), List.cons_append,
        List.nil_append, complete_cons_of_within (by rw [tail]; omega), complete, tail]
      simp only [Prod.mk.injEq, Option.some.injEq, and_true]
      omega
  split
  · have lead : (0xE0 + code >>> 12).toUInt8.toNat = 0xE0 + code >>> 12 :=
      toNat_toUInt8 (by omega)
    obtain ⟨least, most, known, within⟩ :=
      continuations_three code (by omega) (by omega) (by omega)
    rw [List.cons_append, pieces_cons_of_complete _ (some code) rest
      (by rw [lead, known])]
    · rw [Option.map_some, same]
    · rw [lead, leadBits, if_neg (by omega), if_neg (by omega), if_pos (by omega),
        List.cons_append, complete_cons_of_within (by rw [tail]; exact within),
        List.cons_append, complete_cons_of_within (by rw [tail]; omega), complete, tail, tail]
      simp only [Prod.mk.injEq, Option.some.injEq, List.nil_append, and_true]
      omega
  · have lead : (0xF0 + code >>> 18).toUInt8.toNat = 0xF0 + code >>> 18 :=
      toNat_toUInt8 (by omega)
    obtain ⟨least, most, known, within⟩ :=
      continuations_four code (by omega) (by omega)
    rw [List.cons_append, pieces_cons_of_complete _ (some code) rest
      (by rw [lead, known])]
    · rw [Option.map_some, same]
    · rw [lead, leadBits, if_neg (by omega), if_neg (by omega), if_neg (by omega),
        List.cons_append, complete_cons_of_within (by rw [tail]; exact within),
        List.cons_append, complete_cons_of_within (by rw [tail]; omega),
        List.cons_append, complete_cons_of_within (by rw [tail]; omega),
        complete, tail, tail, tail]
      simp only [Prod.mk.injEq, Option.some.injEq, List.nil_append, and_true]
      omega

theorem pieces_encode_append (text : List Char) (rest : List UInt8) :
    pieces (encode text ++ rest) = text.map some ++ pieces rest := by
  induction text with
  | nil => rfl
  | cons character text inductionHypothesis =>
    rw [encode, List.flatMap_cons, List.append_assoc, pieces_encodeCharacter_append, ← encode,
      inductionHypothesis]
    rfl

theorem pieces_encode (text : List Char) : pieces (encode text) = text.map some := by
  have whole := pieces_encode_append text []
  rwa [List.append_nil, pieces, List.append_nil] at whole

/-- What was written is read again. -/
@[simp]
theorem decode_encode (text : List Char) : decode (encode text) = text := by
  rw [decode, pieces_encode, List.map_map]
  exact List.map_id text

/-! ### Writing what was read -/

theorem complete_cons_eq_some {code found low high : Nat} {bounds : List (Nat × Nat)}
    {bytes rest : List UInt8}
    (read : complete code ((low, high) :: bounds) bytes = (some found, rest)) :
    ∃ byte later, bytes = byte :: later ∧ low ≤ byte.toNat ∧ byte.toNat ≤ high ∧
      complete (code * 64 + (byte.toNat - 0x80)) bounds later = (some found, rest) := by
  cases bytes with
  | nil => cases read
  | cons byte later =>
    rw [complete] at read
    split at read
    · rename_i within
      rw [Bool.and_eq_true, decide_eq_true_eq, decide_eq_true_eq] at within
      exact ⟨byte, later, rfl, within.1, within.2, read⟩
    · cases read

theorem encodeCharacter_one {first : UInt8} (ascii : first.toNat < 0x80) :
    encodeCharacter (Char.ofNat first.toNat) = [first] := by
  rw [encodeCharacter, toNat_ofNat (by omega), if_pos ascii, toUInt8_eq rfl]

theorem encodeCharacter_two {first second : UInt8}
    (lead : 0xC2 ≤ first.toNat ∧ first.toNat < 0xE0)
    (inside : 0x80 ≤ second.toNat ∧ second.toNat ≤ 0xBF) :
    encodeCharacter (Char.ofNat ((first.toNat - 0xC0) * 64 + (second.toNat - 0x80))) =
      [first, second] := by
  rw [encodeCharacter, toNat_ofNat (by omega), if_neg (by omega), if_pos (by omega)]
  simp only [List.cons.injEq, and_true]
  exact ⟨toUInt8_eq (by omega), toUInt8_eq (by omega)⟩

theorem encodeCharacter_three {first second third : UInt8} {code : Nat}
    (value : code =
      ((first.toNat - 0xE0) * 64 + (second.toNat - 0x80)) * 64 + (third.toNat - 0x80))
    (lead : 0xE0 ≤ first.toNat ∧ first.toNat < 0xF0)
    (inside : 0x80 ≤ second.toNat ∧ second.toNat ≤ 0xBF)
    (last : 0x80 ≤ third.toNat ∧ third.toNat ≤ 0xBF)
    (scalar : 0x800 ≤ code ∧ (code < 0xD800 ∨ 0xDFFF < code)) :
    encodeCharacter (Char.ofNat code) = [first, second, third] := by
  rw [encodeCharacter, toNat_ofNat (by omega), if_neg (by omega), if_neg (by omega),
    if_pos (by omega)]
  simp only [List.cons.injEq, and_true]
  exact ⟨toUInt8_eq (by omega), toUInt8_eq (by omega), toUInt8_eq (by omega)⟩

theorem encodeCharacter_four {first second third fourth : UInt8} {code : Nat}
    (value : code = (((first.toNat - 0xF0) * 64 + (second.toNat - 0x80)) * 64 +
      (third.toNat - 0x80)) * 64 + (fourth.toNat - 0x80))
    (lead : 0xF0 ≤ first.toNat)
    (inside : 0x80 ≤ second.toNat ∧ second.toNat ≤ 0xBF)
    (after : 0x80 ≤ third.toNat ∧ third.toNat ≤ 0xBF)
    (last : 0x80 ≤ fourth.toNat ∧ fourth.toNat ≤ 0xBF)
    (scalar : 0x10000 ≤ code ∧ code < 0x110000) :
    encodeCharacter (Char.ofNat code) = [first, second, third, fourth] := by
  rw [encodeCharacter, toNat_ofNat (by omega), if_neg (by omega), if_neg (by omega),
    if_neg (by omega)]
  simp only [List.cons.injEq, and_true]
  exact ⟨toUInt8_eq (by omega), toUInt8_eq (by omega), toUInt8_eq (by omega),
    toUInt8_eq (by omega)⟩

/-- The first byte of a character of three bytes keeps the second one within bounds that leave
out short forms and surrogates. -/
theorem encodeCharacter_of_three {first : UInt8} {least most code : Nat}
    {bytes rest : List UInt8}
    (lead : 0xE0 ≤ first.toNat ∧ first.toNat < 0xF0)
    (within : 0x80 ≤ least ∧ most ≤ 0xBF)
    (long : first.toNat = 0xE0 → 0xA0 ≤ least)
    (scalar : first.toNat = 0xED → most ≤ 0x9F)
    (read : complete (first.toNat - 0xE0) [(least, most), (0x80, 0xBF)] bytes =
      (some code, rest)) :
    encodeCharacter (Char.ofNat code) ++ rest = first :: bytes := by
  obtain ⟨second, later, rfl, low, high, read⟩ := complete_cons_eq_some read
  obtain ⟨third, later, rfl, low', high', read⟩ := complete_cons_eq_some read
  rw [complete, Prod.mk.injEq, Option.some.injEq] at read
  obtain ⟨rfl, rfl⟩ := read
  rw [encodeCharacter_three rfl lead (by omega) (by omega) (by omega)]
  rfl

theorem encodeCharacter_of_four {first : UInt8} {least most code : Nat}
    {bytes rest : List UInt8}
    (lead : 0xF0 ≤ first.toNat ∧ first.toNat ≤ 0xF4)
    (within : 0x80 ≤ least ∧ most ≤ 0xBF)
    (long : first.toNat = 0xF0 → 0x90 ≤ least)
    (scalar : first.toNat = 0xF4 → most ≤ 0x8F)
    (read : complete (first.toNat - 0xF0) [(least, most), (0x80, 0xBF), (0x80, 0xBF)] bytes =
      (some code, rest)) :
    encodeCharacter (Char.ofNat code) ++ rest = first :: bytes := by
  obtain ⟨second, later, rfl, low, high, read⟩ := complete_cons_eq_some read
  obtain ⟨third, later, rfl, low', high', read⟩ := complete_cons_eq_some read
  obtain ⟨fourth, later, rfl, low'', high'', read⟩ := complete_cons_eq_some read
  rw [complete, Prod.mk.injEq, Option.some.injEq] at read
  obtain ⟨rfl, rfl⟩ := read
  rw [encodeCharacter_four rfl lead.1 (by omega) (by omega) (by omega) (by omega)]
  rfl

/-- The bytes that were read as a character are the bytes of that character. -/
theorem encodeCharacter_of_complete {first : UInt8} {bytes rest : List UInt8}
    {bounds : List (Nat × Nat)} {code : Nat}
    (known : continuations first.toNat = some bounds)
    (read : complete (leadBits first.toNat) bounds bytes = (some code, rest)) :
    encodeCharacter (Char.ofNat code) ++ rest = first :: bytes := by
  simp only [continuations, beq_iff_eq] at known
  rw [leadBits] at read
  -- one case for each line of the table of first bytes
  split at known
  · cases known
    rw [if_pos (by omega), complete, Prod.mk.injEq, Option.some.injEq] at read
    obtain ⟨rfl, rfl⟩ := read
    rw [encodeCharacter_one (by omega)]
    rfl
  split at known
  · cases known
  split at known
  · cases known
    rw [if_neg (by omega), if_pos (by omega)] at read
    obtain ⟨second, later, rfl, low, high, read⟩ := complete_cons_eq_some read
    rw [complete, Prod.mk.injEq, Option.some.injEq] at read
    obtain ⟨rfl, rfl⟩ := read
    rw [encodeCharacter_two (by omega) (by omega)]
    rfl
  rw [if_neg (by omega), if_neg (by omega)] at read
  split at known
  · cases known
    rw [if_pos (by omega)] at read
    exact encodeCharacter_of_three (by omega) (by omega) (by omega) (by omega) read
  split at known
  · cases known
    rw [if_pos (by omega)] at read
    exact encodeCharacter_of_three (by omega) (by omega) (by omega) (by omega) read
  split at known
  · cases known
    rw [if_pos (by omega)] at read
    exact encodeCharacter_of_three (by omega) (by omega) (by omega) (by omega) read
  rw [if_neg (by omega)] at read
  split at known
  · cases known
    exact encodeCharacter_of_four (by omega) (by omega) (by omega) (by omega) read
  split at known
  · cases known
    exact encodeCharacter_of_four (by omega) (by omega) (by omega) (by omega) read
  split at known
  · cases known
    exact encodeCharacter_of_four (by omega) (by omega) (by omega) (by omega) read
  · cases known

/-- Where a character is read first, its bytes come first. -/
theorem eq_encodeCharacter_append {bytes : List UInt8} {character : Char}
    {later : List (Option Char)} (read : pieces bytes = some character :: later) :
    ∃ rest, bytes = encodeCharacter character ++ rest ∧ pieces rest = later := by
  fun_cases pieces bytes with
  | case1 =>
    rw [pieces] at read
    cases read
  | case2 byte bytes invalid =>
    rw [pieces, invalid] at read
    cases read
  | case3 byte bytes bounds known step =>
    rw [pieces, known] at read
    simp only [List.cons.injEq, Option.map_eq_some_iff] at read
    obtain ⟨⟨code, found, rfl⟩, rest⟩ := read
    exact ⟨_, (encodeCharacter_of_complete known (Prod.ext found rfl)).symm, rest⟩

/-- What is read in two parts stands in two parts. -/
theorem exists_append_of_pieces {bytes : List UInt8} {first second : List (Option Char)}
    (read : pieces bytes = first ++ second) :
    ∃ before after, bytes = before ++ after ∧ pieces after = second := by
  induction first generalizing bytes with
  | nil => exact ⟨[], bytes, rfl, read⟩
  | cons piece first inductionHypothesis =>
    fun_cases pieces bytes with
    | case1 =>
      rw [pieces] at read
      cases read
    | case2 byte bytes invalid =>
      rw [pieces, invalid, List.cons_append, List.cons.injEq] at read
      obtain ⟨before, after, rfl, rest⟩ := inductionHypothesis read.2
      exact ⟨byte :: before, after, rfl, rest⟩
    | case3 byte bytes bounds known step =>
      rw [pieces, known] at read
      simp only [List.cons_append, List.cons.injEq] at read
      obtain ⟨before, after, split, rest⟩ := inductionHypothesis read.2
      obtain ⟨consumed, whole⟩ := complete_suffix (leadBits byte.toNat) bounds bytes
      refine ⟨byte :: (consumed ++ before), after, ?_, rest⟩
      rw [List.cons_append, List.append_assoc, ← split, whole]

/-- Where a character is read, its bytes stand. -/
theorem isInfix_encodeCharacter {bytes : List UInt8} {character : Char}
    (read : some character ∈ pieces bytes) : encodeCharacter character <:+: bytes := by
  obtain ⟨first, second, split⟩ := List.append_of_mem read
  obtain ⟨before, after, rfl, later⟩ := exists_append_of_pieces split
  obtain ⟨rest, rfl, -⟩ := eq_encodeCharacter_append later
  exact ⟨before, rest, by rw [List.append_assoc]⟩

/-- Bytes that are UTF-8 throughout are the bytes of the text read from them. -/
theorem encode_of_pieces {bytes : List UInt8} {text : List Char}
    (read : pieces bytes = text.map some) : encode text = bytes := by
  fun_induction pieces bytes generalizing text with
  | case1 =>
    cases text with
    | nil => rfl
    | cons => cases read
  | case2 =>
    cases text with
    | nil => cases read
    | cons => simp at read
  | case3 byte bytes bounds known step =>
    rename_i inductionHypothesis
    cases text with
    | nil => cases read
    | cons character text =>
      rw [List.map_cons, List.cons.injEq, Option.map_eq_some_iff] at read
      obtain ⟨⟨code, found, rfl⟩, rest⟩ := read
      rw [encode, List.flatMap_cons, ← encode, inductionHypothesis rest]
      exact encodeCharacter_of_complete known (Prod.ext found rfl)

theorem decodeStrict?_eq_some {bytes : List UInt8} {text : List Char} :
    decodeStrict? bytes = some text ↔ pieces bytes = text.map some := by
  rw [decodeStrict?, mapM_eq_some_iff, List.map_id]

/-- Bytes are UTF-8 throughout exactly if writing the text read from them gives them back. -/
theorem isSome_decodeStrict?_iff {bytes : List UInt8} :
    (decodeStrict? bytes).isSome ↔ encode (decode bytes) = bytes := by
  constructor
  · intro strict
    obtain ⟨text, read⟩ := Option.isSome_iff_exists.mp strict
    have written := encode_of_pieces (decodeStrict?_eq_some.mp read)
    rw [← written, decode_encode]
  · intro same
    rw [← same, decodeStrict?_eq_some.mpr (pieces_encode _)]
    rfl

end CrateAudit.Text

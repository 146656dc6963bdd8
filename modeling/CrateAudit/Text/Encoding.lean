/-
This file reads bytes as UTF-8 and writes text as UTF-8. Reading a source never
fails: each longest run of bytes that starts a character but does not complete it
becomes one replacement character, and so does each byte that starts none.
-/

namespace CrateAudit.Text

/-- The bounds of the bytes that may follow the first byte of a character, in order;
`none` when the byte starts no character. -/
def continuations (first : Nat) : Option (List (Nat × Nat)) :=
  let any := (0x80, 0xBF)
  if first < 0x80 then some []
  else if first < 0xC2 then none
  else if first < 0xE0 then some [any]
  else if first == 0xE0 then some [(0xA0, 0xBF), any]
  else if first == 0xED then some [(0x80, 0x9F), any]
  else if first < 0xF0 then some [any, any]
  else if first == 0xF0 then some [(0x90, 0xBF), any, any]
  else if first < 0xF4 then some [any, any, any]
  else if first == 0xF4 then some [(0x80, 0x8F), any, any]
  else none

/-- What the first byte of a character contributes to its code point. -/
def leadBits (first : Nat) : Nat :=
  if first < 0x80 then first
  else if first < 0xE0 then first - 0xC0
  else if first < 0xF0 then first - 0xE0
  else first - 0xF0

/-- Reads the bytes that complete a character. The answer is the code point, or `none` where
the first byte outside its bounds stands, together with the bytes that remain. -/
def complete (code : Nat) : List (Nat × Nat) → List UInt8 → Option Nat × List UInt8
  | [], bytes => (some code, bytes)
  | _ :: _, [] => (none, [])
  | (low, high) :: bounds, byte :: bytes =>
    if low ≤ byte.toNat && byte.toNat ≤ high then
      complete (code * 64 + (byte.toNat - 0x80)) bounds bytes
    else (none, byte :: bytes)

theorem complete_length (code : Nat) (bounds : List (Nat × Nat)) (bytes : List UInt8) :
    (complete code bounds bytes).2.length ≤ bytes.length := by
  induction bounds generalizing code bytes with
  | nil => simp [complete]
  | cons bound bounds inductionHypothesis =>
    cases bytes with
    | nil => simp [complete]
    | cons byte bytes =>
      unfold complete
      split
      · exact Nat.le_succ_of_le (inductionHypothesis _ _)
      · simp

/-- Stands for bytes that are no character. -/
def replacement : Char := '\uFFFD'

/-- The pieces of a byte sequence: a character, or `none` for bytes that are none. -/
def pieces : List UInt8 → List (Option Char)
  | [] => []
  | byte :: bytes =>
    match continuations byte.toNat with
    | none => none :: pieces bytes
    | some bounds =>
      let step := complete (leadBits byte.toNat) bounds bytes
      step.1.map Char.ofNat :: pieces step.2
  termination_by bytes => bytes.length
  decreasing_by
  · simp
  · have shorter := complete_length (leadBits byte.toNat) bounds bytes
    simp only [List.length_cons]
    omega

/-- The text of a byte sequence, with replacement characters where it is not UTF-8. -/
def decode (bytes : List UInt8) : List Char :=
  (pieces bytes).map fun piece => piece.getD replacement

/-- The text of a byte sequence that is UTF-8 throughout. -/
def decodeStrict? (bytes : List UInt8) : Option (List Char) :=
  (pieces bytes).mapM id

/-- The bytes of one character. -/
def encodeCharacter (character : Char) : List UInt8 :=
  let code := character.toNat
  let tail (shift : Nat) : UInt8 := (0x80 + code >>> shift % 64).toUInt8
  if code < 0x80 then [code.toUInt8]
  else if code < 0x800 then [(0xC0 + code >>> 6).toUInt8, tail 0]
  else if code < 0x10000 then [(0xE0 + code >>> 12).toUInt8, tail 6, tail 0]
  else [(0xF0 + code >>> 18).toUInt8, tail 12, tail 6, tail 0]

/-- The bytes of a text. -/
def encode (text : List Char) : List UInt8 :=
  text.flatMap encodeCharacter

end CrateAudit.Text

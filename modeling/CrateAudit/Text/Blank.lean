/-
This file holds the white space of Unicode, the four ASCII separators included,
and trims it from the ends of a line. A zero-width space and a byte order mark
are not blank.
-/

namespace CrateAudit

/-- One line of text, without its terminator. -/
abbrev Line := List Char

namespace Text

/-- White space. -/
def isBlank (character : Char) : Bool :=
  let code := character.toNat
  (0x09 ≤ code && code ≤ 0x0D) || (0x1C ≤ code && code ≤ 0x20) || code == 0x85 || code == 0xA0 ||
    code == 0x1680 || (0x2000 ≤ code && code ≤ 0x200A) || code == 0x2028 || code == 0x2029 ||
    code == 0x202F || code == 0x205F || code == 0x3000

/-- The blank characters, one by one. -/
def blanks : List Char :=
  (List.range' 0x09 5 ++ List.range' 0x1C 5 ++ List.range' 0x2000 11 ++
    [0x85, 0xA0, 0x1680, 0x2028, 0x2029, 0x202F, 0x205F, 0x3000]).map Char.ofNat

theorem mem_blanks {character : Char} (blank : isBlank character = true) : character ∈ blanks := by
  refine List.mem_map.mpr ⟨character.toNat, ?_, Char.ofNat_toNat character⟩
  simp only [isBlank, Bool.or_eq_true, Bool.and_eq_true, decide_eq_true_eq, beq_iff_eq] at blank
  simp only [List.mem_append, List.mem_range'_1, List.mem_cons, List.not_mem_nil, or_false]
  omega

/-- The line without its leading blanks. -/
def trimStart (line : Line) : Line :=
  line.dropWhile isBlank

/-- The line without its trailing blanks. -/
def trimEnd (line : Line) : Line :=
  (line.reverse.dropWhile isBlank).reverse

/-- The line without blanks at either end. -/
def trim (line : Line) : Line :=
  trimEnd (trimStart line)

/-- The line without the characters that satisfy `drop` at either end. -/
def trimBy (drop : Char → Bool) (line : Line) : Line :=
  ((line.dropWhile drop).reverse.dropWhile drop).reverse

end Text

end CrateAudit

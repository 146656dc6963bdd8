/-
This file says what the patterns for parameters find in a text. A parameter with an underscore
is found where such a name begins a word and has a colon after it, provided that a function was
named before it and no body has been opened since. A search finds the first of these names, and
a second pattern finds a given name with a colon after it wherever it begins a word.
-/

import CrateAudit.Proofs.Discards
import CrateAudit.Proofs.Trials
import CrateAudit.Scan.RustFile

namespace CrateAudit

/-- Two texts stand in a line one after the other. -/
theorem Text.append_prefix_drop_iff {line first second : Line} {offset : Nat} :
    first ++ second <+: line.drop offset ↔
      first <+: line.drop offset ∧ second <+: line.drop (offset + first.length) := by
  constructor
  · rintro ⟨rest, left⟩
    have whole : line.drop offset = first ++ (second ++ rest) := by
      rw [← left, List.append_assoc]
    rw [drop_add_of_drop whole, whole]
    exact ⟨List.prefix_append _ _, List.prefix_append _ _⟩
  · rintro ⟨⟨after, left⟩, later⟩
    rw [drop_add_of_drop left.symm] at later
    obtain ⟨rest, rfl⟩ := later
    exact ⟨rest, by rw [← left, List.append_assoc]⟩

/-- The characters of a line where a text stands are those of the text. -/
theorem Text.exists_mem_of_prefix_drop {line piece : Line} {offset index : Nat}
    (comes : piece <+: line.drop offset) (low : offset ≤ index)
    (high : index < offset + piece.length) :
    ∃ character ∈ piece, (line.drop index).head? = some character := by
  obtain ⟨rest, left⟩ := comes
  obtain ⟨ahead, rfl⟩ := Nat.exists_eq_add_of_le low
  have inside : ahead < piece.length := by omega
  refine ⟨piece[ahead], List.getElem_mem inside, ?_⟩
  rw [List.head?_drop, ← List.getElem?_drop, ← left, List.getElem?_append_left inside,
    List.getElem?_eq_getElem inside]

/-- A text ends at an offset of a line exactly if it stands there from some offset on. -/
theorem Text.suffix_take_iff {line piece : Line} {offset : Nat} (inside : offset ≤ line.length) :
    piece <:+ line.take offset ↔
      ∃ start, offset = start + piece.length ∧ piece <+: line.drop start := by
  constructor
  · rintro ⟨front, whole⟩
    have size := congrArg List.length whole
    rw [List.length_append, List.length_take, Nat.min_eq_left inside] at size
    have left := congrArg (List.drop front.length) (List.take_append_drop offset line)
    rw [← whole, List.append_assoc, List.drop_left] at left
    exact ⟨front.length, size.symm, line.drop offset, left⟩
  · rintro ⟨start, rfl, rest, left⟩
    rw [take_add_of_drop left.symm]
    exact List.suffix_append _ _

namespace Place

/-! ### Places of a line -/

/-- The place of a line at an offset, before anything is captured. -/
def inLine (line : Line) (offset : Nat) : Place :=
  ⟨offset, (line.take offset).reverse, line.drop offset, []⟩

variable {line piece : Line} {offset : Nat}

theorem skip_inLine (comes : piece <+: line.drop offset) :
    (inLine line offset).skip piece = inLine line (offset + piece.length) := by
  obtain ⟨rest, left⟩ := comes
  rw [inLine, skip, inLine, take_add_of_drop left.symm, List.reverse_append, List.drop_drop]

theorem wellPlaced_inLine (inside : offset ≤ line.length) :
    (inLine line offset).offset = (inLine line offset).before.length := by
  rw [inLine, List.length_reverse, List.length_take, Nat.min_eq_left inside]

end Place

namespace Regex

variable {regex : Regex} {line : Line}

/-! ### The first match -/

theorem matchAt?_false (regex : Regex) (place : Place) :
    regex.matchAt? false place = (regex.run place some).map (⟨place.offset, ·⟩) := by
  simp [matchAt?]

/-- A search from an offset on tries the place there first. -/
theorem searchFrom_of_lt {offset : Nat} (inside : offset < line.length) :
    regex.searchFrom false offset (line.take offset).reverse (line.drop offset) =
      match regex.matchAt? false (.inLine line offset) with
      | some found => some found
      | none => regex.searchFrom false (offset + 1) (line.take (offset + 1)).reverse
          (line.drop (offset + 1)) := by
  have later : 0 < (line.drop offset).length := by
    rw [List.length_drop]
    omega
  obtain ⟨character, rest, left⟩ := List.exists_cons_of_length_pos later
  have piece : line.drop offset = [character] ++ rest := left
  have before : line.take (offset + 1) = line.take offset ++ [character] := take_add_of_drop piece
  have after : line.drop (offset + 1) = rest := drop_succ_of_drop left
  rw [before, after, List.reverse_append, Place.inLine, left]
  rfl

/-- There is no match at any place, or a search gives the match at the first place that has one. -/
theorem search?_cases (regex : Regex) (line : Line) :
    (regex.search? line = none ∧
      ∀ offset ≤ line.length, regex.matchAt? false (.inLine line offset) = none) ∨
    ∃ found, ∃ offset ≤ line.length, regex.search? line = some found ∧
      regex.matchAt? false (.inLine line offset) = some found ∧
      ∀ earlier < offset, regex.matchAt? false (.inLine line earlier) = none := by
  suffices general : ∀ rest offset, offset + rest = line.length →
      (∀ earlier < offset, regex.matchAt? false (.inLine line earlier) = none) →
      (regex.searchFrom false offset (line.take offset).reverse (line.drop offset) = none ∧
        ∀ offset ≤ line.length, regex.matchAt? false (.inLine line offset) = none) ∨
      ∃ found, ∃ place ≤ line.length,
        regex.searchFrom false offset (line.take offset).reverse (line.drop offset) = some found ∧
        regex.matchAt? false (.inLine line place) = some found ∧
        ∀ earlier < place, regex.matchAt? false (.inLine line earlier) = none from
    general line.length 0 (Nat.zero_add _) fun _ absent => absurd absent (Nat.not_lt_zero _)
  intro rest
  induction rest with
  | zero =>
    intro offset whole first
    have last : regex.searchFrom false offset (line.take offset).reverse (line.drop offset) =
        regex.matchAt? false (.inLine line offset) := by
      rw [Place.inLine, List.drop_eq_nil_of_le (by omega), searchFrom]
    rw [last]
    cases here : regex.matchAt? false (.inLine line offset) with
    | none =>
      refine Or.inl ⟨rfl, fun place inside => ?_⟩
      rcases Nat.lt_or_eq_of_le inside with earlier | rfl
      · exact first place (by omega)
      · rwa [show line.length = offset by omega]
    | some found => exact Or.inr ⟨found, offset, by omega, rfl, here, first⟩
  | succ rest inductionHypothesis =>
    intro offset whole first
    rw [searchFrom_of_lt (by omega)]
    cases here : regex.matchAt? false (.inLine line offset) with
    | none =>
      refine inductionHypothesis (offset + 1) (by omega) fun earlier before => ?_
      rcases Nat.lt_succ_iff_lt_or_eq.mp before with before | rfl
      · exact first earlier before
      · exact here
    | some found => exact Or.inr ⟨found, offset, by omega, rfl, here, first⟩

theorem occursIn_iff :
    regex.occursIn line = true ↔
      ∃ offset ≤ line.length, (regex.matchAt? false (.inLine line offset)).isSome = true := by
  rw [occursIn]
  rcases search?_cases regex line with ⟨none, nowhere⟩ | ⟨found, offset, inside, some, here, _⟩
  · rw [none]
    refine iff_of_false Bool.false_ne_true ?_
    rintro ⟨offset, inside, here⟩
    rw [nowhere offset inside] at here
    cases here
  · rw [some]
    exact iff_of_true rfl ⟨offset, inside, by rw [here]; rfl⟩

/-! ### Characters before a pattern -/

section

variable {test : CharacterTest} {least : Nat} {most : Option Nat} {greedy : Bool}
  {rest : List Regex} {offset : Nat}

/-- Repeated characters are passed before the rest of a pattern. -/
theorem isSome_run_characters :
    ((inOrder (.repetition (.one test false) least none greedy :: rest)).run
        (.inLine line offset) some).isSome = true ↔
      ∃ text, (∀ character ∈ text, test.admits false character = true) ∧ least ≤ text.length ∧
        text <+: line.drop offset ∧
        ((inOrder rest).run (.inLine line (offset + text.length)) some).isSome = true := by
  rw [run_inOrder_cons, isSome_run_repetition]
  refine exists_congr fun text => ?_
  constructor
  · rintro ⟨⟨admitted, comes⟩, enough, followed⟩
    rw [Place.skip_inLine comes] at followed
    exact ⟨admitted, enough, comes, followed⟩
  · rintro ⟨admitted, enough, comes, followed⟩
    rw [← Place.skip_inLine comes] at followed
    exact ⟨⟨admitted, comes⟩, enough, followed⟩

theorem exists_text_of_run_characters {final : Place}
    (found : (inOrder (.repetition (.one test false) least most greedy :: rest)).run
      (.inLine line offset) some = some final) :
    ∃ text, (∀ character ∈ text, test.admits false character = true) ∧ least ≤ text.length ∧
      text <+: line.drop offset ∧
      (inOrder rest).run (.inLine line (offset + text.length)) some = some final := by
  rw [run_inOrder_cons] at found
  obtain ⟨text, ⟨admitted, comes⟩, enough, followed⟩ := exists_canPass_of_run found
  rw [Place.skip_inLine comes] at followed
  exact ⟨text, admitted, enough, comes, followed⟩

/-- As few characters as possible are passed before the rest of a pattern. -/
theorem exists_first_of_run_fewCharacters {final : Place}
    (found : (inOrder (few (.one test false) :: rest)).run (.inLine line offset) some =
      some final) :
    ∃ text, (∀ character ∈ text, test.admits false character = true) ∧
      text <+: line.drop offset ∧
      (inOrder rest).run (.inLine line (offset + text.length)) some = some final ∧
      ∀ length < text.length, (inOrder rest).run (.inLine line (offset + length)) some = none := by
  rw [run_inOrder_cons] at found
  obtain ⟨text, ⟨admitted, comes⟩, followed, first⟩ := exists_first_of_run_few found
  rw [Place.skip_inLine comes] at followed
  refine ⟨text, admitted, comes, followed, fun length short => ?_⟩
  have size : (text.take length).length = length := List.length_take_of_le (Nat.le_of_lt short)
  have shorter : text.take length <+: text := List.take_prefix length text
  have absent := first _ shorter fun same => by
    rw [← size, same] at short
    exact Nat.lt_irrefl _ short
  rwa [Place.skip_inLine (shorter.trans comes), size] at absent

end

/-- A pattern that begins at the edge of a word is matched there, before one of its texts. -/
theorem isSome_matchAt?_edge {rest : List Regex} {texts : Line → Prop}
    (passes : (inOrder rest).PassesExactly texts) {place : Place} :
    ((inOrder (.anchor .wordEdge :: rest)).matchAt? false place).isSome = true ↔
      place.isWordEdge = true ∧ ∃ text, texts text ∧ text <+: place.after := by
  rw [matchAt?_false, Option.isSome_map, run_inOrder_cons, run, Anchor.holds]
  split
  · rename_i edge
    rw [passes some (fun _ => True) fun place => by simp]
    constructor
    · rintro ⟨text, rest, own, left, _⟩
      exact ⟨edge, text, own, rest, left.symm⟩
    · rintro ⟨_, text, own, rest, left⟩
      exact ⟨text, rest, own, left.symm, trivial⟩
  · rename_i inner
    exact iff_of_false Bool.false_ne_true fun both => inner both.1

end Regex

namespace Scan

open Regex (inOrder exactly parts many few atLeastOne blank wordCharacter noneOf)

/-! ### Names with a colon after them -/

/-- A name that begins with an underscore and goes on. -/
structure IsUnderscored (name : Line) : Prop where
  begins : ['_'] <+: name
  long : 1 < name.length
  word : ∀ character ∈ name, Text.isWordCharacter character = true

/-- A name begins a word of a line at an offset and has a colon after it, blanks aside. -/
structure IsTypedAt (line name : Line) (offset : Nat) : Prop where
  begins : (line.take offset).getLast?.any Text.isWordCharacter = false
  colon : ∃ gap, (∀ character ∈ gap, Text.isBlank character = true) ∧
    name ++ (gap ++ [':']) <+: line.drop offset

variable {line name : Line} {offset : Nat}

theorem IsTypedAt.lt_length (typed : IsTypedAt line name offset) : offset < line.length := by
  obtain ⟨gap, _, comes⟩ := typed.colon
  have short := comes.length_le
  simp only [List.length_append, List.length_singleton, List.length_drop] at short
  omega

/-- What stands before a name that is typed is no part of a word. -/
theorem IsTypedAt.not_word (typed : IsTypedAt line name (offset + 1)) {character : Char}
    (stands : (line.drop offset).head? = some character) :
    Text.isWordCharacter character = false := by
  have begins := typed.begins
  rw [List.head?_drop] at stands
  rw [List.getLast?_take, if_neg (Nat.succ_ne_zero offset), Nat.add_sub_cancel, stands] at begins
  exact begins

/-- Where a name with an underscore comes next, the edge of a word is its beginning. -/
theorem isWordEdge_inLine (underscored : IsUnderscored name) {rest : Line}
    (comes : name ++ rest <+: line.drop offset) :
    (Place.inLine line offset).isWordEdge = true ↔
      (line.take offset).getLast?.any Text.isWordCharacter = false := by
  obtain ⟨more, rfl⟩ := underscored.begins
  obtain ⟨later, left⟩ := comes
  have next : (line.drop offset).head?.any Text.isWordCharacter = true := by
    rw [← left]
    rfl
  rw [Place.isWordEdge, Place.inLine, List.head?_reverse, next]
  cases (line.take offset).getLast?.any Text.isWordCharacter <;> simp

theorem passesExactly_colon :
    (inOrder [many blank, exactly ':']).PassesExactly fun text =>
      ∃ gap, (∀ character ∈ gap, Text.isBlank character = true) ∧ text = gap ++ [':'] := by
  refine (Regex.PassesExactly.blanks.cons (Regex.PassesExactly.exactly ':').alone).congr
    fun text => ?_
  constructor
  · rintro ⟨gap, _, blank, rfl, rfl⟩
    exact ⟨gap, blank, rfl⟩
  · rintro ⟨gap, blank, rfl⟩
    exact ⟨gap, _, blank, rfl, rfl⟩

/-- The pattern for a given name finds it where it has a colon after it. -/
theorem occursIn_parameterNamed (underscored : IsUnderscored name) :
    (parameterNamed name).occursIn line = true ↔ ∃ offset, IsTypedAt line name offset := by
  have passes : (inOrder (name.map exactly ++ [many blank, exactly ':'])).PassesExactly fun text =>
      ∃ start rest, start = name ∧ (∃ gap, (∀ character ∈ gap, Text.isBlank character = true) ∧
        rest = gap ++ [':']) ∧ text = start ++ rest := by
    have own := Regex.PassesExactly.parts (String.ofList name)
    rw [parts, String.toList_ofList] at own
    exact own.append passesExactly_colon
  rw [Regex.occursIn_iff]
  refine exists_congr fun offset => ?_
  rw [parameterNamed, List.append_assoc, List.singleton_append, Regex.isSome_matchAt?_edge passes]
  constructor
  · rintro ⟨_, edge, _, ⟨_, _, rfl, ⟨gap, blank, rfl⟩, rfl⟩, comes⟩
    exact ⟨(isWordEdge_inLine underscored comes).mp edge, gap, blank, comes⟩
  · intro typed
    obtain ⟨gap, blank, comes⟩ := typed.colon
    exact ⟨Nat.le_of_lt typed.lt_length, (isWordEdge_inLine underscored comes).mpr typed.begins, _,
      ⟨_, _, rfl, ⟨gap, blank, rfl⟩, rfl⟩, comes⟩

/-! ### Parameters -/

/-- The text from the `fn` of a function up to a parameter of it. -/
def IsOpening (opening : Line) : Prop :=
  ∃ gap word between, Text.IsGap gap ∧ word ≠ [] ∧
    (∀ character ∈ word, Text.isWordCharacter character = true) ∧ '\x7b' ∉ between ∧
    opening = "fn".toList ++ (gap ++ (word ++ between))

/-- A parameter of a function begins with an underscore at an offset of a line. -/
structure IsParameterAt (line name : Line) (offset : Nat) : Prop where
  underscored : IsUnderscored name
  typed : IsTypedAt line name offset
  opened : ∃ opening, IsOpening opening ∧ opening <:+ line.take offset

/-- The pattern of a parameter, after the edge of a word. -/
def parameterEnd : List Regex :=
  [.group 1 (inOrder [exactly '_', atLeastOne wordCharacter]), many blank, exactly ':']

theorem underscoreParameterUse_regex : Rule.underscoreParameterUse.regex =
    inOrder (parts "fn" ++ atLeastOne blank :: atLeastOne wordCharacter :: few (noneOf ['\x7b']) ::
      .anchor .wordEdge :: parameterEnd) := rfl

theorem passesExactly_parameterEnd : (inOrder parameterEnd).PassesExactly fun text =>
    ∃ name rest, IsUnderscored name ∧
      (∃ gap, (∀ character ∈ gap, Text.isBlank character = true) ∧ rest = gap ++ [':']) ∧
      text = name ++ rest := by
  have word : (inOrder [exactly '_', atLeastOne wordCharacter]).PassesExactly IsUnderscored := by
    refine ((Regex.PassesExactly.exactly '_').cons (Regex.PassesExactly.repetition
      (.oneOf [.named .word false] false) 1 true).alone).congr fun text => ?_
    simp only [Regex.admits_wordCharacter]
    constructor
    · rintro ⟨_, rest, rfl, ⟨word, long⟩, rfl⟩
      exact ⟨List.prefix_append _ _, Nat.succ_lt_succ long, List.forall_mem_cons.mpr ⟨rfl, word⟩⟩
    · rintro ⟨⟨rest, rfl⟩, long, word⟩
      exact ⟨_, rest, rfl, ⟨(List.forall_mem_cons.mp word).2, Nat.lt_of_succ_lt_succ long⟩, rfl⟩
  exact (word.group 1).cons passesExactly_colon

/-- The end of the pattern for parameters succeeds where a name with an underscore has a colon. -/
theorem isSome_run_parameterEnd :
    ((inOrder (.anchor .wordEdge :: parameterEnd)).run (.inLine line offset) some).isSome = true ↔
      ∃ name, IsUnderscored name ∧ IsTypedAt line name offset := by
  rw [← Option.isSome_map, ← Regex.matchAt?_false,
    Regex.isSome_matchAt?_edge passesExactly_parameterEnd]
  constructor
  · rintro ⟨edge, _, ⟨name, _, underscored, ⟨gap, blank, rfl⟩, rfl⟩, comes⟩
    exact ⟨name, underscored, (isWordEdge_inLine underscored comes).mp edge, gap, blank, comes⟩
  · rintro ⟨name, underscored, typed⟩
    obtain ⟨gap, blank, comes⟩ := typed.colon
    exact ⟨(isWordEdge_inLine underscored comes).mpr typed.begins, _,
      ⟨name, _, underscored, ⟨gap, blank, rfl⟩, rfl⟩, comes⟩

/-- What it captures is that name. -/
theorem captured_of_run_parameterEnd (inside : offset ≤ line.length) {final : Place}
    (found : (inOrder (.anchor .wordEdge :: parameterEnd)).run (.inLine line offset) some =
      some final) :
    ∃ name, final.captured? 1 = some name ∧ IsUnderscored name ∧ IsTypedAt line name offset := by
  obtain ⟨_, way, same⟩ := Regex.exists_reaches_of_run found
  cases same
  obtain ⟨_, ⟨edge, rfl⟩, way⟩ := Regex.reaches_inOrder_cons.mp way
  obtain ⟨_, ⟨afterName, way, rfl⟩, blanks⟩ := Regex.reaches_inOrder_cons.mp way
  obtain ⟨afterGap, blanks, colon⟩ := Regex.reaches_inOrder_cons.mp blanks
  obtain ⟨gap, blank, _, passesGap⟩ := Regex.passes_of_blanks blanks
  obtain ⟨afterFirst, first, ⟨count, long, rounds⟩⟩ := Regex.reaches_inOrder_cons.mp way
  obtain ⟨rest, length, word, passesRest⟩ := Regex.passes_of_rounds rounds
  have passesName := (Regex.reaches_exactly.mp first).append passesRest
  have passesColon := Regex.reaches_exactly.mp colon
  have underscored : IsUnderscored (['_'] ++ rest) := by
    refine ⟨List.prefix_append _ _, ?_, List.forall_mem_cons.mpr ⟨rfl, fun character member => ?_⟩⟩
    · simp only [List.length_append, List.length_singleton]
      omega
    · exact Regex.admits_wordCharacter.mp (word character member)
  have comes : ['_'] ++ rest ++ (gap ++ [':']) <+: line.drop offset := by
    have left : afterName.after = gap ++ ([':'] ++ final.after) := by
      rw [← passesColon.after]
      exact passesGap.after
    have whole : line.drop offset = ['_'] ++ rest ++ afterName.after := passesName.after
    refine ⟨final.after, ?_⟩
    simp only [whole, left, List.append_assoc]
  refine ⟨['_'] ++ rest, ?_, underscored, (isWordEdge_inLine underscored comes).mp edge, gap, blank,
    comes⟩
  rw [Fix.captured?_of_passes (passesGap.append passesColon)]
  exact Fix.captured?_capture passesName (Place.wellPlaced_inLine inside)

/-- A match of the pattern passes an opening, with as little as possible after the word in it, and
then a parameter. -/
theorem exists_opening_of_run {start : Nat} {final : Place}
    (found : Rule.underscoreParameterUse.regex.run (.inLine line start) some = some final) :
    ∃ gap word between, Text.IsGap gap ∧ word ≠ [] ∧
      (∀ character ∈ word, Text.isWordCharacter character = true) ∧ '\x7b' ∉ between ∧
      "fn".toList ++ (gap ++ (word ++ between)) <+: line.drop start ∧
      (inOrder (.anchor .wordEdge :: parameterEnd)).run
        (.inLine line (start + "fn".toList.length + gap.length + word.length + between.length))
        some = some final ∧
      ∀ length < between.length, (inOrder (.anchor .wordEdge :: parameterEnd)).run
        (.inLine line (start + "fn".toList.length + gap.length + word.length + length)) some =
          none := by
  rw [underscoreParameterUse_regex, Regex.run_parts_append] at found
  split at found
  · rename_i begins
    have comesWord := List.isPrefixOf_iff_prefix.mp begins
    rw [Place.skip_inLine comesWord] at found
    obtain ⟨gap, blank, filled, comesGap, found⟩ := Regex.exists_text_of_run_characters found
    obtain ⟨own, word, long, comesOwn, found⟩ := Regex.exists_text_of_run_characters found
    obtain ⟨between, closed, comesBetween, found, fewest⟩ :=
      Regex.exists_first_of_run_fewCharacters found
    refine ⟨gap, own, between, ⟨List.ne_nil_of_length_pos filled, ?_⟩,
      List.ne_nil_of_length_pos long, ?_, ?_, ?_, found, fewest⟩
    · exact fun character member => Regex.admits_blank.mp (blank character member)
    · exact fun character member => Regex.admits_wordCharacter.mp (word character member)
    · exact fun member =>
        Regex.admits_noneOf.mp (closed _ member) (List.mem_singleton_self '\x7b')
    · rw [Text.append_prefix_drop_iff, Text.append_prefix_drop_iff, Text.append_prefix_drop_iff]
      exact ⟨comesWord, comesGap, comesOwn, comesBetween⟩
  · cases found

/-- The whole pattern matches where a parameter follows an opening. -/
theorem isSome_matchAt?_parameterUse {start : Nat} :
    (Rule.underscoreParameterUse.regex.matchAt? false (.inLine line start)).isSome = true ↔
      ∃ opening name, IsOpening opening ∧ opening <+: line.drop start ∧ IsUnderscored name ∧
        IsTypedAt line name (start + opening.length) := by
  rw [Regex.matchAt?_false, Option.isSome_map]
  constructor
  · intro found
    obtain ⟨final, found⟩ := Option.isSome_iff_exists.mp found
    obtain ⟨gap, own, between, isGap, long, word, closed, comes, found, _⟩ :=
      exists_opening_of_run found
    obtain ⟨name, underscored, typed⟩ :=
      isSome_run_parameterEnd.mp (Option.isSome_iff_exists.mpr ⟨final, found⟩)
    refine ⟨_, name, ⟨gap, own, between, isGap, long, word, closed, rfl⟩, comes, underscored, ?_⟩
    simpa only [List.length_append, Nat.add_assoc] using typed
  · rintro ⟨_, name, ⟨gap, own, between, isGap, long, word, closed, rfl⟩, comes, underscored, typed⟩
    rw [Text.append_prefix_drop_iff, Text.append_prefix_drop_iff,
      Text.append_prefix_drop_iff] at comes
    obtain ⟨comesWord, comesGap, comesOwn, comesBetween⟩ := comes
    have begins : "fn".toList.isPrefixOf (Place.inLine line start).after = true :=
      List.isPrefixOf_iff_prefix.mpr comesWord
    rw [underscoreParameterUse_regex, Regex.run_parts_append, if_pos begins,
      Place.skip_inLine comesWord]
    refine Regex.isSome_run_characters.mpr ⟨gap, fun character member =>
      Regex.admits_blank.mpr (isGap.blank character member), List.length_pos_iff.mpr isGap.filled,
      comesGap, ?_⟩
    refine Regex.isSome_run_characters.mpr ⟨own, fun character member =>
      Regex.admits_wordCharacter.mpr (word character member), List.length_pos_iff.mpr long,
      comesOwn, ?_⟩
    refine Regex.isSome_run_characters.mpr ⟨between, fun character member =>
      Regex.admits_noneOf.mpr ?_, Nat.zero_le _, comesBetween, ?_⟩
    · exact fun brace => closed (List.mem_singleton.mp brace ▸ member)
    · refine isSome_run_parameterEnd.mpr ⟨name, underscored, ?_⟩
      simpa only [List.length_append, Nat.add_assoc] using typed

theorem isParameterAt_iff : IsParameterAt line name offset ↔
    IsUnderscored name ∧ IsTypedAt line name offset ∧
      ∃ start opening, IsOpening opening ∧ offset = start + opening.length ∧
        opening <+: line.drop start := by
  constructor
  · rintro ⟨underscored, typed, opening, opens, ends⟩
    obtain ⟨start, same, comes⟩ := (Text.suffix_take_iff (Nat.le_of_lt typed.lt_length)).mp ends
    exact ⟨underscored, typed, start, opening, opens, same, comes⟩
  · rintro ⟨underscored, typed, start, opening, opens, same, comes⟩
    exact ⟨underscored, typed, opening, opens,
      (Text.suffix_take_iff (Nat.le_of_lt typed.lt_length)).mpr ⟨start, same, comes⟩⟩

/-- The pattern occurs in a line exactly if the line has a parameter with an underscore. -/
theorem occursIn_parameterUse :
    Rule.underscoreParameterUse.regex.occursIn line = true ↔
      ∃ name offset, IsParameterAt line name offset := by
  rw [Regex.occursIn_iff]
  constructor
  · rintro ⟨start, _, found⟩
    obtain ⟨opening, name, opens, comes, underscored, typed⟩ :=
      isSome_matchAt?_parameterUse.mp found
    exact ⟨name, _, isParameterAt_iff.mpr
      ⟨underscored, typed, start, opening, opens, rfl, comes⟩⟩
  · rintro ⟨name, offset, parameter⟩
    obtain ⟨underscored, typed, start, opening, opens, rfl, comes⟩ :=
      isParameterAt_iff.mp parameter
    have inside := typed.lt_length
    exact ⟨start, by omega,
      isSome_matchAt?_parameterUse.mpr ⟨opening, name, opens, comes, underscored, typed⟩⟩

/-- Where `fn` comes with a gap and a word after it, no parameter of a function that is named there
or later stands before the end of this word. -/
theorem le_of_isTypedAt {start later : Nat} {gap word opening : Line}
    (blank : ∀ character ∈ gap, Text.isBlank character = true)
    (own : ∀ character ∈ word, Text.isWordCharacter character = true)
    (named : "fn".toList ++ (gap ++ word) <+: line.drop start)
    (notBefore : start ≤ later) (opens : IsOpening opening) (comes : opening <+: line.drop later)
    (typed : IsTypedAt line name (later + opening.length)) :
    start + "fn".toList.length + gap.length + word.length ≤ later + opening.length := by
  obtain ⟨gap', word', between, _, filled, own', _, rfl⟩ := opens
  rw [Text.append_prefix_drop_iff, Text.append_prefix_drop_iff] at named
  obtain ⟨_, comesGap, comesWord⟩ := named
  rw [Text.append_prefix_drop_iff, Text.append_prefix_drop_iff, Text.append_prefix_drop_iff]
    at comes
  obtain ⟨_, _, comesWord', _⟩ := comes
  have long := List.length_pos_iff.mpr filled
  obtain ⟨first, member, stands⟩ := Text.exists_mem_of_prefix_drop comesWord' (Nat.le_refl _)
    (Nat.lt_add_of_pos_right long)
  simp only [List.length_append] at typed ⊢
  refine Nat.le_of_not_lt fun early => ?_
  by_cases inGap : later + "fn".toList.length + gap'.length <
      start + "fn".toList.length + gap.length
  · -- The other function's name begins in the gap, where there are only blanks.
    obtain ⟨other, member', stands'⟩ := Text.exists_mem_of_prefix_drop comesGap (by omega) inGap
    cases stands.symm.trans stands'
    have word := own' first member
    rw [Text.isWordCharacter_of_isBlank (blank first member')] at word
    cases word
  · -- The parameter begins inside the word, but not at its start.
    obtain ⟨before, same⟩ := Nat.exists_eq_succ_of_ne_zero (show later + ("fn".toList.length +
      (gap'.length + (word'.length + between.length))) ≠ 0 by omega)
    obtain ⟨other, member', stands'⟩ :
        ∃ character ∈ word, (line.drop before).head? = some character :=
      Text.exists_mem_of_prefix_drop comesWord (by omega) (by omega)
    rw [same] at typed
    have word := own other member'
    rw [typed.not_word stands'] at word
    cases word

/-- What a search for the pattern gives: the first parameter of the line. -/
theorem exists_first_of_search? {found : Match}
    (search : Rule.underscoreParameterUse.regex.search? line = some found) :
    ∃ name offset, found.group? 1 = some name ∧ IsParameterAt line name offset ∧
      ∀ name' offset', IsParameterAt line name' offset' → offset ≤ offset' := by
  rcases Regex.search?_cases Rule.underscoreParameterUse.regex line with
    ⟨absent, _⟩ | ⟨_, start, _, present, matched, first⟩
  · rw [absent] at search
    cases search
  rw [present] at search
  cases search
  rw [Regex.matchAt?_false] at matched
  obtain ⟨final, run, rfl⟩ := Option.map_eq_some_iff.mp matched
  obtain ⟨gap, own, between, isGap, long, word, closed, comes, run, fewest⟩ :=
    exists_opening_of_run run
  have within : start + "fn".toList.length + gap.length + own.length + between.length ≤
      line.length := by
    have short := comes.length_le
    simp only [List.length_append, List.length_drop] at short
    omega
  obtain ⟨name, captured, underscored, typed⟩ := captured_of_run_parameterEnd within run
  refine ⟨name, _, captured, isParameterAt_iff.mpr ⟨underscored, typed, start, _,
    ⟨gap, own, between, isGap, long, word, closed, rfl⟩, ?_, comes⟩, fun name' _ parameter => ?_⟩
  · simp only [List.length_append, Nat.add_assoc]
  · obtain ⟨underscored', typed', later, opening, opens, rfl, comes'⟩ :=
      isParameterAt_iff.mp parameter
    have notBefore : start ≤ later := by
      refine Nat.le_of_not_lt fun earlier => ?_
      have matched' := isSome_matchAt?_parameterUse.mpr
        ⟨opening, name', opens, comes', underscored', typed'⟩
      rw [first later earlier] at matched'
      cases matched'
    have named : "fn".toList ++ (gap ++ own) <+: line.drop start := by
      refine List.IsPrefix.trans ?_ comes
      rw [← List.append_assoc gap, ← List.append_assoc]
      exact List.prefix_append _ _
    have low := le_of_isTypedAt isGap.blank word named notBefore opens comes' typed'
    -- A parameter before the one that is found would end the search for an opening there.
    refine Nat.le_of_not_lt fun earlier => ?_
    have absent := fewest (later + opening.length -
      (start + "fn".toList.length + gap.length + own.length)) (by omega)
    rw [Nat.add_sub_of_le low] at absent
    have found := isSome_run_parameterEnd.mpr ⟨name', underscored', typed'⟩
    rw [absent] at found
    cases found

/-- A name is the word at its offset. -/
theorem IsTypedAt.takeWhile (typed : IsTypedAt line name offset)
    (underscored : IsUnderscored name) :
    (line.drop offset).takeWhile Text.isWordCharacter = name := by
  obtain ⟨gap, blank, rest, left⟩ := typed.colon
  have stops : ((gap ++ [':']) ++ rest).takeWhile Text.isWordCharacter = [] := by
    cases gap with
    | nil => exact List.takeWhile_cons_of_neg (by decide)
    | cons first gap =>
      refine List.takeWhile_cons_of_neg ?_
      rw [Text.isWordCharacter_of_isBlank (blank first List.mem_cons_self)]
      exact Bool.false_ne_true
  rw [← left, List.append_assoc, List.takeWhile_append_of_pos underscored.word, stops,
    List.append_nil]

/-- The first parameter with an underscore in a line. -/
structure IsFirstParameter (line name : Line) (offset : Nat) : Prop where
  parameter : IsParameterAt line name offset
  first : ∀ name' offset', IsParameterAt line name' offset' → offset ≤ offset'

theorem IsFirstParameter.unique {name' : Line} {offset' : Nat}
    (first : IsFirstParameter line name offset) (first' : IsFirstParameter line name' offset') :
    offset = offset' ∧ name = name' := by
  have same : offset = offset' :=
    Nat.le_antisymm (first.first _ _ first'.parameter) (first'.first _ _ first.parameter)
  refine ⟨same, ?_⟩
  rw [← first.parameter.typed.takeWhile first.parameter.underscored, same,
    first'.parameter.typed.takeWhile first'.parameter.underscored]

/-- A search for a parameter captures the name of the first one. -/
theorem search?_parameterUse :
    (Rule.underscoreParameterUse.regex.search? line).bind (·.group? 1) = some name ↔
      ∃ offset, IsFirstParameter line name offset := by
  constructor
  · intro captured
    obtain ⟨found, search, captured⟩ := Option.bind_eq_some_iff.mp captured
    obtain ⟨name', offset, captured', parameter, first⟩ := exists_first_of_search? search
    cases captured.symm.trans captured'
    exact ⟨offset, parameter, first⟩
  · rintro ⟨offset, own⟩
    obtain ⟨found, search⟩ := Option.isSome_iff_exists.mp
      (occursIn_parameterUse.mpr ⟨name, offset, own.parameter⟩)
    obtain ⟨name', offset', captured, parameter, first⟩ := exists_first_of_search? search
    have whole : IsFirstParameter line name' offset' := ⟨parameter, first⟩
    rw [search, Option.bind_some, captured, (own.unique whole).2]

end Scan

end CrateAudit
